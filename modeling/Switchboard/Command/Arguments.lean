import Switchboard.Command.Basic
import Switchboard.Keyed

namespace Switchboard.Command

inductive UsageFault
  | noCommand
  | unknownCommand
  | unknownArgument
  | missingArgument
  | missingValue
  | valueForFlag
  | repeated
  | help
deriving DecidableEq

def UsageFault.message : UsageFault → String
  | noCommand => "a command is wanted"
  | unknownCommand => "there is no such command"
  | unknownArgument => "there is no such option, or no room for an operand"
  | missingArgument => "patterns or files are wanted"
  | missingValue => "an option lacks its value"
  | valueForFlag => "a flag takes no value"
  | repeated => "an option may be given only once"
  | help => "help is asked for"

-- The values that an option has room for. Only `many` of them may be given in several goes.
inductive Room
  | none
  | one
  | onePath
  | many
deriving DecidableEq

structure Flag where
  long  : String
  short : Option Char
  room  : Room

structure Grammar where
  flags    : List Flag
  operands : Bool

namespace Grammar

def find? (g : Grammar) (p : Flag → Bool) : Option Flag :=
  g.flags.find? p

end Grammar

structure Progress where
  given    : Entries String (List String)
  operands : List String
  pending? : Option (Flag × List String)

namespace Progress

def start : Progress :=
  ⟨[], [], none⟩

def values (p : Progress) (long : String) : List String :=
  (Entries.get? long p.given).getD []

def has (p : Progress) (long : String) : Bool :=
  (Entries.get? long p.given).isSome

def add (p : Progress) (f : Flag) (vs : List String) : Except UsageFault Progress :=
  if f.room ≠ .none && vs.isEmpty then .error .missingValue
  else if f.room ≠ .many && p.has f.long then .error .repeated
  else if f.room = .onePath && vs.contains "" then .error .missingValue
  else .ok { p with given := p.given.put f.long (p.values f.long ++ vs) }

def settle (p : Progress) : Except UsageFault Progress :=
  match p.pending? with
  | some (f, vs) => { p with pending? := none }.add f vs
  | none => .ok p

def option (p : Progress) (f : Flag) (value? : Option String) : Except UsageFault Progress := do
  if f.room = .none && value?.isSome then .error .valueForFlag
  else
    let p ← p.settle
    if f.long = "help" then .error .help
    else
      match f.room, value? with
      | .none, _ => p.add f []
      | _, some v => p.add f [v]
      | _, none => .ok { p with pending? := some (f, []) }

def operand (g : Grammar) (p : Progress) (s : String) : Except UsageFault Progress := do
  if g.operands then
    let p ← p.settle
    return { p with operands := p.operands ++ [s] }
  else .error .unknownArgument

-- A word that is no option goes to the pending option while there is room.
def word (g : Grammar) (p : Progress) (s : String) : Except UsageFault Progress :=
  match p.pending? with
  | some (f, vs) =>
    if vs.isEmpty || f.room = .many then .ok { p with pending? := some (f, vs ++ [s]) }
    else p.operand g s
  | none => p.operand g s

end Progress

inductive Argument
  | operandsFollow
  | long (name : String) (value? : Option String)
  | short (c : Char) (value? : Option String)
  | word (s : String)

namespace Argument

def attached? : List Char → Option String
  | [] => none
  | '=' :: cs => some (String.ofList cs)
  | cs => some (String.ofList cs)

def ofString (s : String) : Argument :=
  match s.toList with
  | ['-', '-'] => operandsFollow
  | '-' :: '-' :: cs =>
    long (String.ofList (cs.takeWhile (· ≠ '='))) (attached? (cs.dropWhile (· ≠ '=')))
  | '-' :: c :: cs => short c (attached? cs)
  | _ => word s

end Argument

namespace Grammar

def read (g : Grammar) (p : Progress) : List String → Except UsageFault Progress
  | [] => p.settle
  | a :: as =>
    match Argument.ofString a with
    | .operandsFollow => do (← as.foldlM (Progress.operand g) p).settle
    | .word s => do g.read (← p.word g s) as
    | .long name value? =>
      match g.find? (·.long = name) with
      | some f => do g.read (← p.option f value?) as
      | none => .error .unknownArgument
    | .short c value? =>
      match g.find? (·.short = some c) with
      | some f => do g.read (← p.option f (if f.room = .none then none else value?)) as
      | none => .error .unknownArgument

end Grammar

def helpFlag : Flag :=
  ⟨"help", 'h', .none⟩

def patternsGrammar : Grammar where
  flags := [helpFlag]
  operands := true

def checkGrammar : Grammar where
  flags := [helpFlag, ⟨"pattern-file", none, .onePath⟩]
  operands := true

def evalGrammar : Grammar where
  flags :=
    [ helpFlag, ⟨"ndjson", none, .none⟩, ⟨"json-pointer", none, .one⟩, ⟨"jq-expr", none, .one⟩,
      ⟨"input", 'i', .many⟩, ⟨"patterns", 'p', .onePath⟩, ⟨"positional", none, .none⟩,
      ⟨"strict", none, .none⟩, ⟨"out", 'o', .onePath⟩ ]
  operands := false

def patternsOf (arguments : List String) : Except UsageFault (List String) := do
  let p ← patternsGrammar.read .start arguments
  if p.operands.isEmpty then .error .missingArgument else return p.operands

def checkOf (arguments : List String) : Except UsageFault Command := do
  let p ← checkGrammar.read .start arguments
  return .check p.operands (p.values "pattern-file").head?

def evaluationOf (arguments : List String) : Except UsageFault Evaluation := do
  let p ← evalGrammar.read .start arguments
  match p.values "patterns", p.values "input" with
  | patternFile :: _, source :: sources =>
    return {
      patternFile
      selection := {
        sources := source :: sources
        perLine := p.has "ndjson"
        pointer? := (p.values "json-pointer").head?
        query? := (p.values "jq-expr").head?
      }
      positional := p.has "positional"
      strict := p.has "strict"
      output? := (p.values "out").head?
    }
  | _, _ => .error .missingArgument

def names : List String :=
  ["parse", "arity", "check", "eval", "help"]

def helpOf : List String → UsageFault
  | [] => .help
  | [name] => if names.contains name then .help else .unknownCommand
  | _ => .unknownCommand

def startFault (first : String) (rest : List String) : UsageFault :=
  match Argument.ofString first with
  | .operandsFollow =>
    match rest with
    | [] => .noCommand
    | name :: _ => if names.contains name then .unknownArgument else .unknownCommand
  | .long name value? =>
    if name ≠ "help" then .unknownArgument else if value?.isSome then .valueForFlag else .help
  | .short c _ => if c = 'h' then .help else .unknownArgument
  | .word _ => .unknownCommand

def ofArguments : List String → Except UsageFault Command
  | [] => .error .noCommand
  | "parse" :: as => (patternsOf as).map .parse
  | "arity" :: as => (patternsOf as).map .arity
  | "check" :: as => checkOf as
  | "eval" :: as => (evaluationOf as).map .eval
  | "help" :: as => .error (helpOf as)
  | a :: as => .error (startFault a as)

end Switchboard.Command
