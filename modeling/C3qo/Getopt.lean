import Mathlib.Data.List.Basic
import Mathlib.Tactic.SplitIfs

/-!
# Command line options

`getopt` of the C library: the options in the words of a command line, and what remains of them
when a program goes through them one after the other and keeps the last value of each. Words that
are no options are skipped, wherever they stand. Option strings with `::` are left out.
-/

namespace Getopt

/-- What one call of `getopt` returns, with `optarg`. -/
structure Opt where
  /-- The option character, or `?`. -/
  opt : Char
  /-- The argument of the option, or null. -/
  optarg : Option String
  deriving DecidableEq

/-- The answer to an unknown option, and to an option without its argument. -/
def Opt.unknown : Opt := ⟨'?', none⟩

/-- An option character is followed by a colon if it takes an argument. -/
def takesArgument (optstring : List Char) (opt : Char) : Option Bool :=
  if opt = ':' ∨ opt = ';' then
    none
  else
    match optstring.dropWhile (· ≠ opt) with
    | [] => none
    | _ :: rest => some (rest.head? = some ':')

/-- The options of one word, without its dash, and the last of them if its argument is the next
word. -/
def cluster (optstring : List Char) : List Char → List Opt × Option Char
  | [] => ([], none)
  | opt :: nextchar =>
      match takesArgument optstring opt with
      | none =>
          let (opts, pending) := cluster optstring nextchar
          (.unknown :: opts, pending)
      | some false =>
          let (opts, pending) := cluster optstring nextchar
          (⟨opt, none⟩ :: opts, pending)
      | some true =>
          match nextchar with
          | [] => ([], some opt)
          | char :: chars => ([⟨opt, some (String.ofList (char :: chars))⟩], none)

/-- The options of a list of words. -/
def scan (optstring : List Char) : List String → List Opt
  | [] => []
  | word :: words =>
      match word.toList with
      | ['-', '-'] => []
      | '-' :: opt :: nextchar =>
          match cluster optstring (opt :: nextchar), words with
          | (opts, none), words => opts ++ scan optstring words
          | (opts, some _), [] => opts ++ [.unknown]
          | (opts, some opt), optarg :: words => opts ++ ⟨opt, some optarg⟩ :: scan optstring words
      | _ => scan optstring words

/-- What successive calls of `getopt` return, up to the -1. The first word is the name of the
program. -/
def getopt (optstring : String) (argv : List String) : List Opt :=
  scan optstring.toList (argv.drop 1)

/-- The last value that a list of options gives. -/
def lastOf {α : Type*} (value : Opt → Option α) (opts : List Opt) : Option α :=
  opts.reverse.findSome? value

/-- The argument of an option, if it is the option with a given character. -/
def Opt.argument (char : Char) (given : Opt) : Option String :=
  if given.opt = char then given.optarg else none

/-- The last argument of an option. -/
def lastArgument (char : Char) (opts : List Opt) : Option String := lastOf (Opt.argument char) opts

/-- An option occurs. -/
def occurs (char : Char) (opts : List Opt) : Bool := opts.any fun given => given.opt = char

section

variable {α β : Type*}

theorem lastOf_cons (value : Opt → Option α) (given : Opt) (opts : List Opt) :
    lastOf value (given :: opts) = (lastOf value opts).or (value given) := by
  simp [lastOf, List.findSome?_append]

theorem lastOf_map (value : Opt → Option α) (read : α → β) (opts : List Opt) :
    lastOf (fun given => (value given).map read) opts = (lastOf value opts).map read := by
  induction opts with
  | nil => rfl
  | cons given opts ih =>
      rw [lastOf_cons, lastOf_cons, ih]
      cases lastOf value opts <;> rfl

theorem lastOf_occurs (char : Char) (set : α) (opts : List Opt) :
    lastOf (fun given => if given.opt = char then some set else none) opts =
      if occurs char opts then some set else none := by
  induction opts with
  | nil => rfl
  | cons given opts ih =>
      have any : occurs char (given :: opts) = (decide (given.opt = char) || occurs char opts) :=
        List.any_cons
      rw [lastOf_cons, ih, any]
      by_cases same : given.opt = char <;> cases occurs char opts <;> simp [same]

/-- A loop that ends well has got past its first option. -/
theorem foldlM_cons_ok {σ ε : Type*} {body : σ → Opt → Except ε σ} {given : Opt}
    {opts : List Opt} {state final : σ}
    (parsed : (given :: opts).foldlM body state = .ok final) :
    ∃ next, body state given = .ok next ∧ opts.foldlM body next = .ok final := by
  rw [List.foldlM_cons] at parsed
  rcases first : body state given with error | next
  · rw [first] at parsed
    cases parsed
  · rw [first] at parsed
    exact ⟨next, rfl, parsed⟩

/-- A loop over the options in which each option sets a field or leaves it, and which may end
early, leaves in the field the last value given to it. -/
theorem field_of_foldlM {σ ε : Type*} {body : σ → Opt → Except ε σ} (field : σ → α)
    (value : Opt → Option α)
    (sets : ∀ state given state', body state given = .ok state' →
      field state' = (value given).getD (field state))
    {opts : List Opt} {state final : σ} (parsed : opts.foldlM body state = .ok final) :
    field final = (lastOf value opts).getD (field state) := by
  induction opts generalizing state with
  | nil =>
      obtain rfl := Except.ok.inj parsed
      rfl
  | cons given opts ih =>
      obtain ⟨next, first, rest⟩ := foldlM_cons_ok parsed
      rw [ih rest, sets state given next first, lastOf_cons]
      cases lastOf value opts <;> rfl

/-- A field that holds the argument of an option holds the last one after the loop. -/
theorem argument_of_foldlM {σ ε : Type*} {body : σ → Opt → Except ε σ}
    (field : σ → Option String) (char : Char)
    (sets : ∀ state given state', body state given = .ok state' →
      field state' = (given.argument char).or (field state))
    {opts : List Opt} {state final : σ} (parsed : opts.foldlM body state = .ok final) :
    field final = (lastArgument char opts).or (field state) := by
  have or_eq (argument value : Option String) : argument.or value =
      (argument.map some).getD value := by
    cases argument <;> rfl
  have last := field_of_foldlM field (fun given => (given.argument char).map some)
    (fun state given state' done => (sets state given state' done).trans (or_eq _ _)) parsed
  rw [last, lastOf_map, lastArgument, or_eq]

/-- What every option keeps, the loop keeps. -/
theorem holds_of_foldlM {σ ε : Type*} {body : σ → Opt → Except ε σ} {Holds : σ → Prop}
    (keeps : ∀ state given state', body state given = .ok state' → Holds state → Holds state')
    {opts : List Opt} {state final : σ} (start : Holds state)
    (parsed : opts.foldlM body state = .ok final) : Holds final := by
  induction opts generalizing state with
  | nil =>
      obtain rfl := Except.ok.inj parsed
      exact start
  | cons given opts ih =>
      obtain ⟨next, first, rest⟩ := foldlM_cons_ok parsed
      exact ih (keeps state given next first start) rest

end

end Getopt
