import Switchboard.Json.Printer
import Switchboard.Json.Reader

namespace Switchboard.Jq

-- A number is a word; or a double, if a filter has computed it; or else the text that it was given
-- as, with the double nearest to it.
inductive Datum
  | null
  | bool (b : Bool)
  | word (i : Int64)
  | real (x : Binary64)
  | numeral (source : String) (nearest : Binary64)
  | text (s : String)
  | array (items : List Datum)
  | object (members : List (String × Datum))
deriving Inhabited

namespace Datum

def ofNat (n : Nat) : Datum :=
  .word (.ofNat n)

def ofNumeral (cs : List Char) : Datum :=
  match (Decimal.integer? cs).bind Word.ofInt? with
  | some i => .word i
  | none =>
    .numeral (String.ofList cs) ((Decimal.Numeral.read? cs).elim .nan Decimal.Numeral.toBinary64)

def ofWhole (i : Whole) : Datum :=
  match Word.ofInt? i.val with
  | some n => .word n
  | none => .numeral (Json.whole i).compact (.ofInt i.val)

mutual

def ofJson : Json → Datum
  | .null => .null
  | .bool b => .bool b
  | .whole i => ofWhole i
  | .real x => .numeral (Json.real x).compact x.val
  | .text s => .text s
  | .array xs => .array (ofItems xs)
  | .object ms => .object (ofMembers ms)

def ofItems : List Json → List Datum
  | [] => []
  | x :: xs => ofJson x :: ofItems xs

def ofMembers : List (String × Json) → List (String × Datum)
  | [] => []
  | (k, x) :: ms => (k, ofJson x) :: ofMembers ms

end

mutual

-- A numeral is read as a JSON text. One that JSON does not know, such as one with a zero in front,
-- becomes null.
def toJson : Datum → Json
  | null => .null
  | bool b => .bool b
  | word i => .ofInt64 i
  | real x => .ofBinary64 x
  | numeral s _ =>
    match Json.ofString s with
    | .ok x => x
    | .error _ => .null
  | text s => .text s
  | array xs => .array (toItems xs)
  | object ms => .object (toMembers ms)

def toItems : List Datum → List Json
  | [] => []
  | x :: xs => x.toJson :: toItems xs

def toMembers : List (String × Datum) → List (String × Json)
  | [] => []
  | (k, x) :: ms => (k, x.toJson) :: toMembers ms

end

mutual

def chars : Datum → List Char
  | null => "null".toList
  | bool b => if b then "true".toList else "false".toList
  | word i => (toString i.toInt).toList
  | real x => if x.isFinite then Decimal.Layout.screen.write x else "null".toList
  | numeral s _ => s.toList
  | text s => Json.quote s.toList
  | array xs => '[' :: List.intercalate [','] (itemChars xs) ++ [']']
  | object ms => '{' :: List.intercalate [','] (memberChars ms) ++ ['}']

def itemChars : List Datum → List (List Char)
  | [] => []
  | x :: xs => x.chars :: itemChars xs

def memberChars : List (String × Datum) → List (List Char)
  | [] => []
  | (k, x) :: ms => (Json.quote k.toList ++ ':' :: x.chars) :: memberChars ms

end

def compact (x : Datum) : String :=
  String.ofList x.chars

def nearest? : Datum → Option Binary64
  | word i => some (.ofInt i.toInt)
  | real x => some x
  | numeral _ x => some x
  | _ => none

def kind : Datum → Nat
  | null => 0
  | bool _ => 1
  | word _ | real _ | numeral .. => 2
  | text _ => 3
  | array _ => 4
  | object _ => 5

def sortKeys {α : Type} (ms : List (String × α)) : List (String × α) :=
  ms.mergeSort fun m n => decide (m.1 ≤ n.1)

def orderMembers (ms : List (String × (Datum → Ordering))) (ns : List (String × Datum)) :
    Ordering :=
  let ms := sortKeys ms
  let ns := sortKeys ns
  (compare (ms.map Prod.fst) (ns.map Prod.fst)).then
    ((ms.zip ns).foldr (fun (m, n) o => (m.2 n.2).then o) .eq)

mutual

-- Words are compared exactly and all other numbers as doubles.
def order : Datum → Datum → Ordering
  | bool a, bool b => compare a b
  | word i, word j => compare i.toInt j.toInt
  | text s, text t => compare s t
  | array xs, array ys => orderItems xs ys
  | object ms, object ns => orderMembers (comparers ms) ns
  | x, y =>
    match x.nearest?, y.nearest? with
    | some a, some b => a.order b
    | _, _ => compare x.kind y.kind

def orderItems : List Datum → List Datum → Ordering
  | [], [] => .eq
  | [], _ :: _ => .lt
  | _ :: _, [] => .gt
  | x :: xs, y :: ys => (order x y).then (orderItems xs ys)

def comparers : List (String × Datum) → List (String × (Datum → Ordering))
  | [] => []
  | (k, x) :: ms => (k, fun y => order x y) :: comparers ms

end

def isTrue : Datum → Bool
  | null => false
  | bool b => b
  | _ => true

end Datum

end Switchboard.Jq
