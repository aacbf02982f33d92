import C3qo.Getopt
import C3qo.Platform

/-!
# The command line of the client

`ncli.cpp`: the options of `ncli` name the peer, the type of the command, its options and the
expected return. The options of the command are words on their own, which a parser for its type
turns into the command that is sent.
-/

namespace C3qo

open Getopt

/-- The value of a string as `atoi` reads it: white space, a sign, and digits up to the first
character that is none. Outside the range of `int` the C library leaves it undefined. -/
def atoi (text : String) : Int :=
  let value (digits : List Char) : Nat :=
    (digits.takeWhile Char.isDigit).foldl (fun n digit => 10 * n + (digit.toNat - '0'.toNat)) 0
  match text.toList.dropWhile fun char => char = ' ' ∨ ('\t' ≤ char ∧ char ≤ '\r') with
  | '-' :: digits => -(value digits : Int)
  | '+' :: digits => value digits
  | digits => value digits

/-- The number is one of type `int`. -/
def IsInt (number : Int) : Prop := -2 ^ 31 ≤ number ∧ number < 2 ^ 31

instance decidableIsInt (number : Int) : Decidable (IsInt number) := by
  unfold IsInt
  infer_instance

/-- `Command`, the struct that is packed: its strings can be null. -/
inductive CommandStruct
  /-- `COMMAND__TYPE_ADD`. -/
  | add (id : Int32) (type_ : Option String)
  /-- `COMMAND__TYPE_START`. -/
  | start (id : Int32)
  /-- `COMMAND__TYPE_STOP`. -/
  | stop (id : Int32)
  /-- `COMMAND__TYPE_DEL`. -/
  | del (id : Int32)
  /-- `COMMAND__TYPE_BIND`. -/
  | bind (id port dest : Int32)
  /-- `COMMAND__TYPE_HOOK_ZMQ`. -/
  | hookZmq (id : Int32) (client : Bool) (type_ : Int32) (name addr : Option String)
  /-- `COMMAND__TYPE_TERM`. -/
  | term (term : Bool)
  /-- `COMMAND__TYPE__NOT_SET`. -/
  | notSet
  deriving DecidableEq

/-- The command that the struct stands for: a null string is read back as an empty one. -/
def CommandStruct.read : CommandStruct → Command
  | add id type_ => .add id.toInt (type_.getD "")
  | start id => .start id.toInt
  | stop id => .stop id.toInt
  | del id => .del id.toInt
  | bind id port dest => .bind id.toInt port.toInt dest.toInt
  | hookZmq id client type_ name addr =>
      .hookZmq id.toInt client type_.toInt (name.getD "") (addr.getD "")
  | term _ => .term
  | notSet => .notSet

/-- Why `ncli` does not get past its command line. -/
inductive ParseError
  /-- `options_parse` returns false. -/
  | refused
  /-- An assertion of `options_parse` fails. -/
  | aborted
  /-- The value of an option is not in the range of `int`. -/
  | undefined
  deriving DecidableEq

namespace Ncli

/-- The fields of `struct ncli` that the command line sets. -/
structure Options where
  /-- Identity of the peer to configure. -/
  ncli_peer_ : Option String
  /-- Command type. -/
  ncli_cmd_type_ : Option String
  /-- Command arguments. -/
  ncli_cmd_args_ : Option String
  /-- Command expected return. -/
  ncli_cmd_ret_ : Option String
  /-- The words of the command arguments. -/
  wordexp_ : List String
  /-- The command. -/
  cmd_ : CommandStruct
  /-- Block to add. -/
  add_id_ : Int32
  /-- Type of the block to add. -/
  add_type_ : Option String
  /-- Block to start. -/
  start_id_ : Int32
  /-- Block to stop. -/
  stop_id_ : Int32
  /-- Block to delete. -/
  del_id_ : Int32
  /-- Bind source. -/
  bind_id_ : Int32
  /-- Bind port. -/
  bind_port_ : Int32
  /-- Bind destination. -/
  bind_dest_ : Int32
  /-- Hook to configure. -/
  hook_zmq_id_ : Int32
  /-- Hook client. -/
  hook_zmq_client_ : Bool
  /-- Hook type. -/
  hook_zmq_type_ : Int32
  /-- Hook name. -/
  hook_zmq_name_ : Option String
  /-- Hook address. -/
  hook_zmq_addr_ : Option String

namespace Options

/-- `ncli::ncli`. -/
def new : Options :=
  ⟨none, none, none, none, [], .notSet, 0, none, 0, 0, 0, 0, 0, 0, 0, false, 0, none, none⟩

/-- `field = atoi(optarg)`. -/
def setInt (optarg : String) (set : Int32 → Options) : Except ParseError Options :=
  if IsInt (atoi optarg) then .ok (set (.ofInt (atoi optarg))) else .error .undefined

/-- What the parsers of the command types have in common: a loop with a `switch` over the options,
and the command made of the fields after it. -/
def parseWith (options : String) (switch : Options → Opt → Except ParseError Options)
    (command : Options → CommandStruct) (argv : List String) (ncli : Options) :
    Except ParseError Options :=
  ((getopt options argv).foldlM switch ncli).map fun ncli => { ncli with cmd_ := command ncli }

/-- The `switch` of `ncli::parse_add`. -/
def switchAdd (ncli : Options) : Opt → Except ParseError Options
  | ⟨'i', some optarg⟩ => setInt optarg fun id => { ncli with add_id_ := id }
  | ⟨'t', some optarg⟩ => .ok { ncli with add_type_ := some optarg }
  | _ => .error .refused

/-- `ncli::parse_add`. -/
def parseAdd : List String → Options → Except ParseError Options :=
  parseWith "i:t:" switchAdd fun ncli => .add ncli.add_id_ ncli.add_type_

/-- The `switch` of a parser whose only option sets an identifier. -/
def switchId (set : Options → Int32 → Options) (ncli : Options) : Opt → Except ParseError Options
  | ⟨'i', some optarg⟩ => setInt optarg (set ncli)
  | _ => .error .refused

/-- `ncli::parse_start`. -/
def parseStart : List String → Options → Except ParseError Options :=
  parseWith "i:" (switchId fun ncli id => { ncli with start_id_ := id })
    fun ncli => .start ncli.start_id_

/-- `ncli::parse_stop`. -/
def parseStop : List String → Options → Except ParseError Options :=
  parseWith "i:" (switchId fun ncli id => { ncli with stop_id_ := id })
    fun ncli => .stop ncli.stop_id_

/-- `ncli::parse_del`. -/
def parseDel : List String → Options → Except ParseError Options :=
  parseWith "i:" (switchId fun ncli id => { ncli with del_id_ := id })
    fun ncli => .del ncli.del_id_

/-- The `switch` of `ncli::parse_bind`. -/
def switchBind (ncli : Options) : Opt → Except ParseError Options
  | ⟨'i', some optarg⟩ => setInt optarg fun id => { ncli with bind_id_ := id }
  | ⟨'p', some optarg⟩ => setInt optarg fun port => { ncli with bind_port_ := port }
  | ⟨'d', some optarg⟩ => setInt optarg fun dest => { ncli with bind_dest_ := dest }
  | _ => .error .refused

/-- `ncli::parse_bind`. -/
def parseBind : List String → Options → Except ParseError Options :=
  parseWith "i:p:d:" switchBind fun ncli => .bind ncli.bind_id_ ncli.bind_port_ ncli.bind_dest_

/-- The `switch` of `ncli::parse_hook_zmq`. -/
def switchHookZmq (ncli : Options) : Opt → Except ParseError Options
  | ⟨'i', some optarg⟩ => setInt optarg fun id => { ncli with hook_zmq_id_ := id }
  | ⟨'c', _⟩ => .ok { ncli with hook_zmq_client_ := true }
  | ⟨'t', some optarg⟩ => setInt optarg fun type_ => { ncli with hook_zmq_type_ := type_ }
  | ⟨'n', some optarg⟩ => .ok { ncli with hook_zmq_name_ := some optarg }
  | ⟨'a', some optarg⟩ => .ok { ncli with hook_zmq_addr_ := some optarg }
  | _ => .error .refused

/-- `ncli::parse_hook_zmq`. -/
def parseHookZmq : List String → Options → Except ParseError Options :=
  parseWith "i:ct:n:a:" switchHookZmq fun ncli =>
    .hookZmq ncli.hook_zmq_id_ ncli.hook_zmq_client_ ncli.hook_zmq_type_ ncli.hook_zmq_name_
      ncli.hook_zmq_addr_

/-- `ncli::parse_term`, which ignores the words. -/
def parseTerm (_ : List String) (ncli : Options) : Except ParseError Options :=
  .ok { ncli with cmd_ := .term true }

/-- The `switch` of `ncli::options_parse`. -/
def switchOptions (ncli : Options) : Opt → Except ParseError Options
  | ⟨'i', some optarg⟩ => .ok { ncli with ncli_peer_ := some optarg }
  | ⟨'o', some optarg⟩ => .ok { ncli with ncli_cmd_args_ := some optarg }
  | ⟨'t', some optarg⟩ => .ok { ncli with ncli_cmd_type_ := some optarg }
  | ⟨'r', some optarg⟩ => .ok { ncli with ncli_cmd_ret_ := some optarg }
  | _ => .error .refused

/-- The `if` chain of `ncli::options_parse` over the command types. -/
def parseCommand (type_ : String) (argv : List String) (ncli : Options) :
    Except ParseError Options :=
  if type_ = "add" then
    parseAdd argv ncli
  else if type_ = "start" then
    parseStart argv ncli
  else if type_ = "stop" then
    parseStop argv ncli
  else if type_ = "del" then
    parseDel argv ncli
  else if type_ = "bind" then
    parseBind argv ncli
  else if type_ = "hook_zmq" then
    parseHookZmq argv ncli
  else if type_ = "term" then
    parseTerm argv ncli
  else
    .error .refused

/-- `ncli::options_parse`. -/
def optionsParse (wordexp : String → Option (List String)) (argv : List String)
    (ncli : Options) : Except ParseError Options := do
  let ncli ← (getopt "i:o:t:r:" argv).foldlM switchOptions ncli
  match ncli.ncli_peer_, ncli.ncli_cmd_type_, ncli.ncli_cmd_args_, ncli.ncli_cmd_ret_ with
  | some _, some type_, some args, some _ =>
      match wordexp args with
      | none => .error .aborted
      | some words => parseCommand type_ words { ncli with wordexp_ := words }
  | _, _, _, _ => .error .aborted

end Options

end Ncli

/-! ## The last values of the options -/

/-- The type of a command. -/
inductive CommandType
  /-- Add a block. -/
  | add
  /-- Start a block. -/
  | start
  /-- Stop a block. -/
  | stop
  /-- Delete a block. -/
  | del
  /-- Bind a block to another one. -/
  | bind
  /-- Configure a hook. -/
  | hookZmq
  /-- End the main loop. -/
  | term
  deriving DecidableEq

/-- The last value of an option with an integer, or 0. -/
def lastInt (char : Char) (given : List Opt) : Int := ((lastArgument char given).map atoi).getD 0

/-- The last value of an option with a string, or the empty string. -/
def lastText (char : Char) (given : List Opt) : String := (lastArgument char given).getD ""

namespace CommandType

/-- The word for the type on the command line. -/
def word : CommandType → String
  | add => "add"
  | start => "start"
  | stop => "stop"
  | del => "del"
  | bind => "bind"
  | hookZmq => "hook_zmq"
  | term => "term"

/-- The options of the type, as `getopt` takes them. -/
def options : CommandType → String
  | add => "i:t:"
  | start => "i:"
  | stop => "i:"
  | del => "i:"
  | bind => "i:p:d:"
  | hookZmq => "i:ct:n:a:"
  | term => ""

/-- The command of the type with the last values of its options. -/
def command (given : List Opt) : CommandType → Command
  | add => .add (lastInt 'i' given) (lastText 't' given)
  | start => .start (lastInt 'i' given)
  | stop => .stop (lastInt 'i' given)
  | del => .del (lastInt 'i' given)
  | bind => .bind (lastInt 'i' given) (lastInt 'p' given) (lastInt 'd' given)
  | hookZmq => .hookZmq (lastInt 'i' given) (occurs 'c' given) (lastInt 't' given)
      (lastText 'n' given) (lastText 'a' given)
  | term => .term

end CommandType

namespace Ncli.Options

/-- What the exchange with the peer takes from the command line besides the command. -/
def header (ncli : Options) : Option String × Option String :=
  (ncli.ncli_peer_, ncli.ncli_cmd_ret_)

/-- No field of a command has been set. -/
def Blank (ncli : Options) : Prop :=
  ∃ peer type_ args ret words cmd,
    ncli = ⟨peer, type_, args, ret, words, cmd, 0, none, 0, 0, 0, 0, 0, 0, 0, false, 0, none, none⟩

variable {ncli after last : Options} {opt : Opt}

theorem setInt_ok {optarg : String} {set : Int32 → Options}
    (done : setInt optarg set = .ok after) :
    ∃ value : Int32, value.toInt = atoi optarg ∧ set value = after := by
  unfold setInt at done
  split_ifs at done with representable
  exact ⟨_, Int32.toInt_ofInt_of_le representable.1 representable.2, Except.ok.inj done⟩

/-! ### One option -/

theorem switchAdd_sets (done : switchAdd ncli opt = .ok after) :
    after.header = ncli.header ∧
      after.add_id_.toInt = ((opt.argument 'i').map atoi).getD ncli.add_id_.toInt ∧
      after.add_type_ = (opt.argument 't').or ncli.add_type_ := by
  unfold switchAdd at done
  split at done
  · obtain ⟨value, same, rfl⟩ := setInt_ok done
    simp [Opt.argument, header, same]
  · cases done
    simp [Opt.argument, header]
  · cases done

theorem switchId_sets {set : Options → Int32 → Options} {field : Options → Int32}
    (sets : ∀ ncli id, field (set ncli id) = id)
    (keeps : ∀ ncli id, (set ncli id).header = ncli.header)
    (done : switchId set ncli opt = .ok after) :
    after.header = ncli.header ∧
      (field after).toInt = ((opt.argument 'i').map atoi).getD (field ncli).toInt := by
  unfold switchId at done
  split at done
  · obtain ⟨value, same, rfl⟩ := setInt_ok done
    simp [Opt.argument, keeps, sets, same]
  · cases done

theorem switchBind_sets (done : switchBind ncli opt = .ok after) :
    after.header = ncli.header ∧
      after.bind_id_.toInt = ((opt.argument 'i').map atoi).getD ncli.bind_id_.toInt ∧
      after.bind_port_.toInt = ((opt.argument 'p').map atoi).getD ncli.bind_port_.toInt ∧
      after.bind_dest_.toInt = ((opt.argument 'd').map atoi).getD ncli.bind_dest_.toInt := by
  unfold switchBind at done
  split at done
  · obtain ⟨value, same, rfl⟩ := setInt_ok done
    simp [Opt.argument, header, same]
  · obtain ⟨value, same, rfl⟩ := setInt_ok done
    simp [Opt.argument, header, same]
  · obtain ⟨value, same, rfl⟩ := setInt_ok done
    simp [Opt.argument, header, same]
  · cases done

theorem switchHookZmq_sets (done : switchHookZmq ncli opt = .ok after) :
    after.header = ncli.header ∧
      after.hook_zmq_id_.toInt = ((opt.argument 'i').map atoi).getD ncli.hook_zmq_id_.toInt ∧
      after.hook_zmq_client_ =
        (if opt.opt = 'c' then some true else none).getD ncli.hook_zmq_client_ ∧
      after.hook_zmq_type_.toInt = ((opt.argument 't').map atoi).getD ncli.hook_zmq_type_.toInt ∧
      after.hook_zmq_name_ = (opt.argument 'n').or ncli.hook_zmq_name_ ∧
      after.hook_zmq_addr_ = (opt.argument 'a').or ncli.hook_zmq_addr_ := by
  unfold switchHookZmq at done
  split at done
  · obtain ⟨value, same, rfl⟩ := setInt_ok done
    simp [Opt.argument, header, same]
  · cases done
    simp [Opt.argument, header]
  · obtain ⟨value, same, rfl⟩ := setInt_ok done
    simp [Opt.argument, header, same]
  · cases done
    simp [Opt.argument, header]
  · cases done
    simp [Opt.argument, header]
  · cases done

theorem switchOptions_sets (done : switchOptions ncli opt = .ok after) :
    (ncli.Blank → after.Blank) ∧
      after.ncli_peer_ = (opt.argument 'i').or ncli.ncli_peer_ ∧
      after.ncli_cmd_args_ = (opt.argument 'o').or ncli.ncli_cmd_args_ ∧
      after.ncli_cmd_type_ = (opt.argument 't').or ncli.ncli_cmd_type_ ∧
      after.ncli_cmd_ret_ = (opt.argument 'r').or ncli.ncli_cmd_ret_ := by
  unfold switchOptions at done
  split at done <;> cases done
  all_goals
    refine ⟨?_, by simp [Opt.argument]⟩
    rintro ⟨peer, type_, args, ret, words, cmd, rfl⟩
    exact ⟨_, _, _, _, _, _, rfl⟩

/-! ### All options -/

/-- The command line asks for a command of the type with the last values of the options in the
words, and the rest is as before. -/
def Asks (type_ : CommandType) (words : List String) (ncli after : Options) : Prop :=
  after.header = ncli.header ∧ after.cmd_.read = type_.command (getopt type_.options words)

section

variable {switch : Options → Opt → Except ParseError Options} {words : List String}

theorem parseWith_ok {options : String} {command : Options → CommandStruct}
    (parsed : parseWith options switch command words ncli = .ok after) :
    ∃ last, (getopt options words).foldlM switch ncli = .ok last ∧
      { last with cmd_ := command last } = after := by
  unfold parseWith at parsed
  rcases looped : (getopt options words).foldlM switch ncli with error | last
  · rw [looped] at parsed
    cases parsed
  · rw [looped] at parsed
    exact ⟨last, rfl, Except.ok.inj parsed⟩

variable {opts : List Opt}

theorem header_of_foldlM
    (keeps : ∀ {ncli opt after}, switch ncli opt = .ok after → after.header = ncli.header)
    (looped : opts.foldlM switch ncli = .ok last) : last.header = ncli.header :=
  holds_of_foldlM (fun _ _ _ done same => (keeps done).trans same) rfl looped

theorem lastInt_of_foldlM (field : Options → Int32) (char : Char)
    (sets : ∀ {ncli opt after}, switch ncli opt = .ok after →
      (field after).toInt = ((opt.argument char).map atoi).getD (field ncli).toInt)
    (blank : field ncli = 0) (looped : opts.foldlM switch ncli = .ok last) :
    (field last).toInt = lastInt char opts := by
  have set := field_of_foldlM (fun ncli => (field ncli).toInt)
    (fun opt => (opt.argument char).map atoi) (fun _ _ _ done => sets done) looped
  rw [set, lastOf_map, blank]
  rfl

theorem lastText_of_foldlM (field : Options → Option String) (char : Char)
    (sets : ∀ {ncli opt after}, switch ncli opt = .ok after →
      field after = (opt.argument char).or (field ncli))
    (blank : field ncli = none) (looped : opts.foldlM switch ncli = .ok last) :
    (field last).getD "" = lastText char opts := by
  rw [argument_of_foldlM field char (fun _ _ _ done => sets done) looped, blank, Option.or_none]
  rfl

theorem parseAdd_asks (blank : ncli.Blank) (parsed : parseAdd words ncli = .ok after) :
    Asks .add words ncli after := by
  obtain ⟨peer, type_, args, ret, before, cmd, rfl⟩ := blank
  obtain ⟨last, looped, rfl⟩ := parseWith_ok parsed
  have header := header_of_foldlM (fun done => (switchAdd_sets done).1) looped
  have id := lastInt_of_foldlM add_id_ 'i' (fun done => (switchAdd_sets done).2.1) rfl looped
  have type_ := lastText_of_foldlM add_type_ 't' (fun done => (switchAdd_sets done).2.2) rfl looped
  refine ⟨header, ?_⟩
  simp only [CommandStruct.read, CommandType.command, CommandType.options, id, type_]

/-- The commands whose only option is the identifier of a block. -/
theorem parseId_asks (set : Options → Int32 → Options) (field : Options → Int32)
    (command : Int32 → CommandStruct) {type_ : CommandType}
    (sets : ∀ ncli id, field (set ncli id) = id)
    (keeps : ∀ ncli id, (set ncli id).header = ncli.header) (options : type_.options = "i:")
    (reads : ∀ id : Int32, ∀ given, id.toInt = lastInt 'i' given →
      (command id).read = type_.command given)
    (blank : field ncli = 0)
    (parsed : parseWith "i:" (switchId set) (fun ncli => command (field ncli)) words ncli =
      .ok after) : Asks type_ words ncli after := by
  obtain ⟨last, looped, rfl⟩ := parseWith_ok parsed
  have header := header_of_foldlM (fun done => (switchId_sets sets keeps done).1) looped
  have id := lastInt_of_foldlM field 'i' (fun done => (switchId_sets sets keeps done).2) blank
    looped
  refine ⟨header, ?_⟩
  rw [options]
  exact reads _ _ id

theorem parseStart_asks (blank : ncli.Blank) (parsed : parseStart words ncli = .ok after) :
    Asks .start words ncli after := by
  obtain ⟨peer, type_, args, ret, before, cmd, rfl⟩ := blank
  exact parseId_asks (fun ncli id => { ncli with start_id_ := id }) start_id_ .start
    (fun _ _ => rfl) (fun _ _ => rfl) rfl (fun _ _ same => congrArg Command.start same) rfl parsed

theorem parseStop_asks (blank : ncli.Blank) (parsed : parseStop words ncli = .ok after) :
    Asks .stop words ncli after := by
  obtain ⟨peer, type_, args, ret, before, cmd, rfl⟩ := blank
  exact parseId_asks (fun ncli id => { ncli with stop_id_ := id }) stop_id_ .stop
    (fun _ _ => rfl) (fun _ _ => rfl) rfl (fun _ _ same => congrArg Command.stop same) rfl parsed

theorem parseDel_asks (blank : ncli.Blank) (parsed : parseDel words ncli = .ok after) :
    Asks .del words ncli after := by
  obtain ⟨peer, type_, args, ret, before, cmd, rfl⟩ := blank
  exact parseId_asks (fun ncli id => { ncli with del_id_ := id }) del_id_ .del
    (fun _ _ => rfl) (fun _ _ => rfl) rfl (fun _ _ same => congrArg Command.del same) rfl parsed

theorem parseBind_asks (blank : ncli.Blank) (parsed : parseBind words ncli = .ok after) :
    Asks .bind words ncli after := by
  obtain ⟨peer, type_, args, ret, before, cmd, rfl⟩ := blank
  obtain ⟨last, looped, rfl⟩ := parseWith_ok parsed
  have header := header_of_foldlM (fun done => (switchBind_sets done).1) looped
  have id := lastInt_of_foldlM bind_id_ 'i' (fun done => (switchBind_sets done).2.1) rfl looped
  have port := lastInt_of_foldlM bind_port_ 'p' (fun done => (switchBind_sets done).2.2.1) rfl
    looped
  have dest := lastInt_of_foldlM bind_dest_ 'd' (fun done => (switchBind_sets done).2.2.2) rfl
    looped
  refine ⟨header, ?_⟩
  simp only [CommandStruct.read, CommandType.command, CommandType.options, id, port, dest]

theorem parseHookZmq_asks (blank : ncli.Blank) (parsed : parseHookZmq words ncli = .ok after) :
    Asks .hookZmq words ncli after := by
  obtain ⟨peer, type_, args, ret, before, cmd, rfl⟩ := blank
  obtain ⟨last, looped, rfl⟩ := parseWith_ok parsed
  have header := header_of_foldlM (fun done => (switchHookZmq_sets done).1) looped
  have id := lastInt_of_foldlM hook_zmq_id_ 'i'
    (fun done => (switchHookZmq_sets done).2.1) rfl looped
  have client : last.hook_zmq_client_ = occurs 'c' (getopt "i:ct:n:a:" words) := by
    rw [field_of_foldlM hook_zmq_client_ (fun opt => if opt.opt = 'c' then some true else none)
      (fun _ _ _ done => (switchHookZmq_sets done).2.2.1) looped, lastOf_occurs]
    cases occurs 'c' (getopt "i:ct:n:a:" words) <;> rfl
  have hook_type := lastInt_of_foldlM hook_zmq_type_ 't'
    (fun done => (switchHookZmq_sets done).2.2.2.1) rfl looped
  have name := lastText_of_foldlM hook_zmq_name_ 'n'
    (fun done => (switchHookZmq_sets done).2.2.2.2.1) rfl looped
  have addr := lastText_of_foldlM hook_zmq_addr_ 'a'
    (fun done => (switchHookZmq_sets done).2.2.2.2.2) rfl looped
  refine ⟨header, ?_⟩
  simp only [CommandStruct.read, CommandType.command, CommandType.options, id, client, hook_type,
    name, addr]

/-- A command word that is accepted is one of the seven types, and the command is of that type. -/
theorem parseCommand_asks {type_ : String} (blank : ncli.Blank)
    (parsed : parseCommand type_ words ncli = .ok after) :
    ∃ command : CommandType, command.word = type_ ∧ Asks command words ncli after := by
  unfold parseCommand at parsed
  split_ifs at parsed with add start stop del bind hook_zmq term
  · exact ⟨.add, add.symm, parseAdd_asks blank parsed⟩
  · exact ⟨.start, start.symm, parseStart_asks blank parsed⟩
  · exact ⟨.stop, stop.symm, parseStop_asks blank parsed⟩
  · exact ⟨.del, del.symm, parseDel_asks blank parsed⟩
  · exact ⟨.bind, bind.symm, parseBind_asks blank parsed⟩
  · exact ⟨.hookZmq, hook_zmq.symm, parseHookZmq_asks blank parsed⟩
  · cases parsed
    exact ⟨.term, term.symm, rfl, rfl⟩

/-- A command line that is accepted has a peer, a command type, options for it and an expected
return, each the last one given. -/
theorem optionsParse_asks {wordexp : String → Option (List String)} {argv : List String}
    (accepted : optionsParse wordexp argv new = .ok after) :
    ∃ peer args ret words, ∃ type_ : CommandType,
      lastArgument 'i' (getopt "i:o:t:r:" argv) = some peer ∧
      lastArgument 't' (getopt "i:o:t:r:" argv) = some type_.word ∧
      lastArgument 'o' (getopt "i:o:t:r:" argv) = some args ∧
      lastArgument 'r' (getopt "i:o:t:r:" argv) = some ret ∧
      wordexp args = some words ∧ after.header = (some peer, some ret) ∧
      after.cmd_.read = type_.command (getopt type_.options words) := by
  rcases looped : (getopt "i:o:t:r:" argv).foldlM switchOptions new with error | last
  · rw [optionsParse, looped] at accepted
    cases accepted
  · rw [optionsParse, looped] at accepted
    have keeps : ∀ ncli opt after, switchOptions ncli opt = .ok after → ncli.Blank → after.Blank :=
      fun _ _ _ done => (switchOptions_sets done).1
    have blank : last.Blank := holds_of_foldlM keeps ⟨_, _, _, _, _, _, rfl⟩ looped
    have peer := argument_of_foldlM ncli_peer_ 'i'
      (fun _ _ _ done => (switchOptions_sets done).2.1) looped
    have args := argument_of_foldlM ncli_cmd_args_ 'o'
      (fun _ _ _ done => (switchOptions_sets done).2.2.1) looped
    have type_ := argument_of_foldlM ncli_cmd_type_ 't'
      (fun _ _ _ done => (switchOptions_sets done).2.2.2.1) looped
    have ret := argument_of_foldlM ncli_cmd_ret_ 'r'
      (fun _ _ _ done => (switchOptions_sets done).2.2.2.2) looped
    simp only [new, Option.or_none] at peer args type_ ret
    dsimp only [bind, Except.bind] at accepted
    split at accepted
    · rename_i last_peer word last_args last_ret same_peer same_type same_args same_ret
      rcases expanded : wordexp last_args with _ | words
      · rw [expanded] at accepted
        cases accepted
      · rw [expanded] at accepted
        have blank_words : { last with wordexp_ := words }.Blank := by
          obtain ⟨_, _, _, _, _, _, rfl⟩ := blank
          exact ⟨_, _, _, _, _, _, rfl⟩
        obtain ⟨command, rfl, header, read⟩ := parseCommand_asks blank_words accepted
        refine ⟨last_peer, last_args, last_ret, words, command, ?_⟩
        exact ⟨peer.symm.trans same_peer, type_.symm.trans same_type, args.symm.trans same_args,
          ret.symm.trans same_ret, expanded, header.trans (Prod.ext same_peer same_ret), read⟩
    · cases accepted

end

end Ncli.Options

end C3qo
