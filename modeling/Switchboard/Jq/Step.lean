import Switchboard.Jq.Datum

namespace Switchboard.Jq

inductive RuntimeError
  | notIterable (x : Datum)
  | notIndexable (x key : Datum)
  | notRangeable (x : Datum)
  | notInteger (x : Datum)
  | notNumber (x : Datum)
  | notText (x : Datum)
  | noLength (x : Datum)

namespace RuntimeError

def message : RuntimeError → String
  | notIterable x => s!"cannot use {x.compact} as iterable (array or object)"
  | notIndexable x k => s!"cannot index {x.compact} with {k.compact}"
  | notRangeable x => s!"cannot use {x.compact} as rangeable (array or string)"
  | notInteger x => s!"cannot use {x.compact} as integer"
  | notNumber x => s!"cannot use {x.compact} as number"
  | notText x => s!"cannot use {x.compact} as string"
  | noLength x => (Datum.text (x.compact ++ " has no length")).compact

end RuntimeError

inductive Step (α : Type)
  | child (key : α)
  | each
  | slice (lower upper : Option α)

namespace Datum

def position? (i : Int) (length : Nat) : Option Nat :=
  if 0 ≤ i then some i.toNat
  else if -i ≤ length then some (length - (-i).toNat)
  else none

-- What is not in an array or object is null.
def child (x key : Datum) : Except RuntimeError Datum :=
  match x, key with
  | array xs, word i => .ok (((position? i.toInt xs.length).bind (xs[·]?)).getD null)
  | object ms, text k => .ok ((Entries.get? k ms).getD null)
  | array _, _ | object _, _ => .error (.notIndexable x key)
  | _, _ => .error (.notIterable x)

def children : Datum → Except RuntimeError (List Datum)
  | array xs => .ok xs
  | object ms => .ok (ms.map Prod.snd)
  | x => .error (.notIterable x)

def bound (length default : Nat) : Option Datum → Except RuntimeError Nat
  | none => .ok default
  | some (word i) => .ok (min ((position? i.toInt length).getD 0) length)
  | some x => .error (.notInteger x)

def sliceOf {α : Type} (xs : List α) (lower upper : Option Datum) :
    Except RuntimeError (List α) := do
  let a ← bound xs.length 0 lower
  let b ← bound xs.length xs.length upper
  return (xs.drop a).take (b - a)

def slice (x : Datum) (lower upper : Option Datum) : Except RuntimeError Datum :=
  match x with
  | array xs => (sliceOf xs lower upper).map array
  | text s => (sliceOf s.toList lower upper).map fun cs => text (String.ofList cs)
  | x => .error (.notRangeable x)

-- Magnitude of a number, code points of a text, items of an array, members of an object. The least
-- word has no magnitude among the words and is its own.
def length : Datum → Except RuntimeError Datum
  | null => .ok (ofNat 0)
  | bool b => .error (.noLength (bool b))
  | word i => .ok (word i.abs)
  | real x => .ok (real x.abs)
  | numeral _ x => .ok (real x.abs)
  | text s => .ok (ofNat s.length)
  | array xs => .ok (ofNat xs.length)
  | object ms => .ok (ofNat ms.length)

def negated : Datum → Except RuntimeError Datum
  | word i => .ok (word (-i))
  | real x => .ok (real x.negate)
  | numeral _ x => .ok (real x.negate)
  | x => .error (.notNumber x)

def step (x : Datum) : Step Datum → Except RuntimeError (List Datum)
  | .child key => (x.child key).map ([·])
  | .each => x.children
  | .slice lower upper => (x.slice lower upper).map ([·])

end Datum

end Switchboard.Jq
