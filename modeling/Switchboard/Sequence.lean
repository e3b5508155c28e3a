import Switchboard.Value.Basic
import Switchboard.Keyed

namespace Switchboard

inductive SequenceError
  | empty
deriving DecidableEq

def SequenceError.message : SequenceError → String
  | empty => "empty sequence"

namespace Combinator

variable {α β γ : Type}

def identity (x : α) : α :=
  x

def constant (x : α) : Unit → α :=
  fun _ => x

-- From right to left.
def compose (f : β → γ) (g : α → β) : α → γ :=
  fun x => f (g x)

def partialLeft (f : α → β → γ) (a : α) : β → γ :=
  fun b => f a b

def partialRight (f : α → β → γ) (b : β) : α → γ :=
  fun a => f a b

def flip (f : α → β → γ) : β → α → γ :=
  fun b a => f a b

end Combinator

namespace Sequence

variable {α : Type}

def head : List α → Except SequenceError α
  | [] => .error .empty
  | x :: _ => .ok x

def tail : List α → Except SequenceError (List α)
  | [] => .error .empty
  | _ :: xs => .ok xs

def indexOf? [BEq α] (xs : List α) (x : α) : Option Nat :=
  xs.findIdx? (· == x)

def extend (xss : List (List α)) : List α :=
  xss.flatten

def every (xs : List α) (p : α → Bool) : Bool :=
  xs.all p

def any (xs : List α) (p : α → Bool) : Bool :=
  xs.any p

def mergeKeyed {κ : Type} [DecidableEq κ] (ms : List (Keyed κ α)) : Keyed κ α :=
  ms.foldl (fun m new => m.putAll new.entries) .empty

def compact (vs : List Value) : List Value :=
  vs.filter fun
    | .null => false
    | .bool _ => false
    | _ => true

mutual

def leaves : Value → List Value
  | .list vs => flatten vs
  | .null => [.null]
  | .bool b => [.bool b]
  | .int i => [.int i]
  | .float x => [.float x]
  | .text s => [.text s]
  | .object o => [.object o]

def flatten : List Value → List Value
  | [] => []
  | v :: vs => leaves v ++ flatten vs

end

def entry? : Value → Option (String × Value)
  | .list [.text k, v] => some (k, v)
  | _ => none

def ofPairs (vs : List Value) : Keyed String Value :=
  Keyed.ofList (vs.filterMap entry?)

end Sequence

end Switchboard
