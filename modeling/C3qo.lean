import C3qo.Execution
import C3qo.LifeCycle
import C3qo.Sinks
import C3qo.Answers
import C3qo.Ncli
import C3qo.CommandResult
import C3qo.FlowTermination
import C3qo.Stability
import C3qo.Walk
import C3qo.TimerExpiry
import C3qo.Dispatch
import C3qo.TimerMap
import C3qo.CallTree
import C3qo.CommandTopic
import C3qo.BlockClear
import C3qo.PartialSend
import C3qo.Configuration
import C3qo.OwnSocket
import C3qo.Registrations
import C3qo.WireAgreement
import C3qo.Instants
import C3qo.PollTables
import C3qo.Upsert
import C3qo.Delivery
import C3qo.PeerIdentity
import C3qo.FailedStart
import C3qo.Commuting
import C3qo.Builders
import C3qo.BlockDispatch
import C3qo.CommandStore
import C3qo.PacketCounts
import C3qo.MonitoringChannel
import C3qo.MonitoringProgress
import C3qo.Session
import C3qo.RemoteCall
