import Switchboard.Binary64

namespace Switchboard.Decimal

def digitValue (c : Char) : Nat :=
  c.toNat - '0'.toNat

def readDigits (n : Nat) (cs : List Char) : Nat :=
  cs.foldl (fun n c => 10 * n + digitValue c) n

def spanDigits (cs : List Char) : List Char × List Char :=
  (cs.takeWhile Char.isDigit, cs.dropWhile Char.isDigit)

-- Splits off an optional sign; `true` stands for minus.
def spanSign : List Char → Bool × List Char
  | '+' :: cs => (false, cs)
  | '-' :: cs => (true, cs)
  | cs => (false, cs)

theorem spanDigits_append (cs : List Char) : (spanDigits cs).1 ++ (spanDigits cs).2 = cs :=
  List.takeWhile_append_dropWhile

theorem isDigit_of_mem_spanDigits {c : Char} {cs : List Char} (h : c ∈ (spanDigits cs).1) :
    c.isDigit :=
  List.all_eq_true.1 List.all_takeWhile c h

def integer? (cs : List Char) : Option Int :=
  let (negative, ds) := spanSign cs
  if ds.isEmpty || !ds.all Char.isDigit then none
  else some (if negative then -(readDigits 0 ds : Int) else readDigits 0 ds)

def natural? : List Char → Option Nat
  | '+' :: ds => if ds.isEmpty || !ds.all Char.isDigit then none else some (readDigits 0 ds)
  | ds => if ds.isEmpty || !ds.all Char.isDigit then none else some (readDigits 0 ds)

def size? (cs : List Char) : Option Nat :=
  (natural? cs).filter (· < 0x10000000000000000)

-- A decimal number in parts: `digits * 10 ^ exponent`, negated or not.
structure Numeral where
  negative : Bool
  digits   : Nat
  exponent : Int
deriving DecidableEq

namespace Numeral

def toBinary64 (n : Numeral) : Binary64 :=
  .ofDecimal n.negative n.digits n.exponent

def exponentPart? : List Char → Option Int
  | [] => some 0
  | c :: cs => if c = 'e' || c = 'E' then integer? cs else none

def read? (cs : List Char) : Option Numeral :=
  let (negative, cs) := spanSign cs
  let (whole, cs) := spanDigits cs
  let (places, cs) :=
    match cs with
    | '.' :: cs => spanDigits cs
    | cs => ([], cs)
  if whole.isEmpty && places.isEmpty then none
  else (exponentPart? cs).map fun e =>
    { negative, digits := readDigits 0 (whole ++ places), exponent := e - places.length }

end Numeral

def special? (cs : List Char) : Option Binary64 :=
  let (negative, cs) := spanSign cs
  let w := String.ofList (cs.map Char.toLower)
  if w = "inf" || w = "infinity" then some (.infinity negative)
  else if w = "nan" then some .nan
  else none

def binary64? (cs : List Char) : Option Binary64 :=
  match Numeral.read? cs with
  | some n => some n.toBinary64
  | none => special? cs

def looksNumeric (cs : List Char) : Bool :=
  cs.any Char.isDigit && cs.all fun c => c.isDigit || ['+', '-', '.', 'e', 'E'].contains c

end Switchboard.Decimal
