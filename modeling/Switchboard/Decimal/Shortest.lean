import Switchboard.Binary64

namespace Switchboard.Decimal

structure Scientific where
  digits   : Nat
  exponent : Int
deriving DecidableEq

namespace Scientific

-- Drops the zeros at the end of the digits. Seventeen digits are all that a double needs.
def strip : Nat → Scientific → Scientific
  | 0, x => x
  | n + 1, x =>
    if x.digits % 10 = 0 && x.digits ≠ 0 then strip n ⟨x.digits / 10, x.exponent + 1⟩ else x

end Scientific

inductive Tie
  | even
  | up
deriving DecidableEq

-- The reals that round to one magnitude, in units of a power of two that makes all three integers.
-- The ends belong to it iff the magnitude's significand is even.
structure Interval where
  lower  : Nat
  value  : Nat
  upper  : Nat
  unit   : Int
  closed : Bool

namespace Interval

open Binary64 in
def ofRank (r : Nat) : Interval :=
  let base := exponent (r - 1)
  let units (q : Nat) := significand q <<< (exponent q - base).toNat
  { lower  := units (r - 1) + units r
    value  := 2 * units r
    upper  := units r + units (r + 1)
    unit   := base - 1
    closed := r % 2 = 0 }

-- Of the two neighbours of the value on the grid of the multiples of 10^p, the nearer of those that
-- lie in the interval.
def neighbour? (tie : Tie) (i : Interval) (p : Int) : Option Scientific :=
  let scale := Nat.pow 10 (-p).toNat <<< i.unit.toNat
  let step  := Nat.pow 10 p.toNat <<< (-i.unit).toNat
  let below := i.value * scale / step
  let rest  := i.value * scale % step
  let low   := i.lower * scale < below * step || (i.closed && i.lower * scale = below * step)
  let high  :=
    (below + 1) * step < i.upper * scale || (i.closed && (below + 1) * step = i.upper * scale)
  let nearer :=
    if 2 * rest < step || (2 * rest = step && tie = .even && below % 2 = 0) then below
    else below + 1
  match low, high with
  | true, true => some ⟨nearer, p⟩
  | true, false => some ⟨below, p⟩
  | false, true => some ⟨below + 1, p⟩
  | false, false => none

def reaches (i : Interval) (p : Int) : Bool :=
  Nat.pow 10 p.toNat <<< (-i.unit).toNat ≤ (i.value * Nat.pow 10 (-p).toNat) <<< i.unit.toNat

-- The place of the value's leading digit. The binary logarithm gives it up to one.
def leadingPlace (i : Interval) : Int :=
  let guess := ((i.value.log2 : Int) + i.unit) * 30103 / 100000
  if i.reaches (guess + 1) then guess + 1 else if i.reaches guess then guess else guess - 1

-- Seventeen digits always suffice, so the last alternative is never taken.
def shortest (tie : Tie) (i : Interval) : Scientific :=
  let place := i.leadingPlace
  let found := (List.range 17).findSome? fun n : Nat => i.neighbour? tie (place - n)
  (found.getD ⟨i.value, 0⟩).strip 17

end Interval

-- How a double is laid out: exponents from `lowest` to `highest` are written with a point only, and
-- beyond them a power of ten follows, with a plus sign or without one. `tie` chooses the last digit
-- when two are equally near.
structure Layout where
  lowest  : Int
  highest : Int
  plus    : Bool
  tie     : Tie

namespace Layout

def plain (ds : List Char) (place : Int) : List Char :=
  if place < 0 then '0' :: '.' :: List.replicate (-place - 1).toNat '0' ++ ds
  else
    let whole := place.toNat + 1
    let places := ds.drop whole
    ds.take whole ++ List.replicate (whole - ds.length) '0' ++
      '.' :: (if places.isEmpty then ['0'] else places)

def scientific (l : Layout) (ds : List Char) (place : Int) : List Char :=
  let places := ds.drop 1
  ds.take 1 ++ (if places.isEmpty then [] else '.' :: places) ++
    'e' :: (if 0 ≤ place && l.plus then ['+'] else []) ++ (toString place).toList

def magnitude (l : Layout) (r : Nat) : List Char :=
  if r = 0 then ['0', '.', '0']
  else
    let x := (Interval.ofRank r).shortest l.tie
    let ds := Nat.toDigits 10 x.digits
    let place := x.exponent + ds.length - 1
    if l.lowest ≤ place && place ≤ l.highest then plain ds place else l.scientific ds place

def write (l : Layout) : Binary64 → List Char
  | .nan => "NaN".toList
  | .number negative r =>
    (if negative then ['-'] else []) ++
      (if r.val < Binary64.infinityRank then l.magnitude r else "inf".toList)

def screen : Layout :=
  { lowest := -4, highest := 15, plus := false, tie := .up }

end Layout

end Switchboard.Decimal
