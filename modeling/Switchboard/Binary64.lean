import Switchboard.Word

namespace Switchboard

abbrev Binary64.blockSize : Nat :=
  0x10000000000000

-- A magnitude is its rank among all magnitudes, which are 2047 blocks of finite ones and infinity
-- after them. So ranks are ordered like the numbers.
inductive Binary64
  | nan
  | number (negative : Bool) (rank : Fin (2047 * Binary64.blockSize + 1))
deriving DecidableEq

namespace Binary64

abbrev infinityRank : Nat :=
  2047 * blockSize

def infinity (negative : Bool) : Binary64 :=
  .number negative ⟨infinityRank, Nat.lt_succ_self _⟩

def zero (negative : Bool) : Binary64 :=
  .number negative 0

def isFinite : Binary64 → Bool
  | nan => false
  | number _ r => r.val < infinityRank

def equals : Binary64 → Binary64 → Bool
  | number s r, number t q => r == q && (s == t || r == 0)
  | _, _ => false

theorem equals_comm (x y : Binary64) : x.equals y = y.equals x := by
  cases x <;> cases y <;> grind [equals]

theorem equals_self {x : Binary64} (h : x.isFinite) : x.equals x := by
  cases x <;> simp_all [equals, isFinite]

def signedRank : Binary64 → Int
  | nan => 0
  | number s r => if s then -r.val else r.val

def order : Binary64 → Binary64 → Ordering
  | nan, _ => .lt
  | _, nan => .gt
  | x, y => compare x.signedRank y.signedRank

def negate : Binary64 → Binary64
  | nan => nan
  | number s r => number (!s) r

def abs : Binary64 → Binary64
  | nan => nan
  | number _ r => number false r

-- The magnitude of rank `r` is `significand r * 2 ^ exponent r`. The first block holds the
-- multiples of 2^-1074 below 2^-1022.
def significand (r : Nat) : Nat :=
  if r < blockSize then r else blockSize + r % blockSize

def exponent (r : Nat) : Int :=
  if r < blockSize then -1074 else (r / blockSize : Nat) - 1075

def ratio (r : Nat) : Nat × Nat :=
  (significand r <<< (exponent r).toNat, 1 <<< (-exponent r).toNat)

def divEven (n d : Nat) : Nat :=
  if 2 * (n % d) < d then n / d
  else if d < 2 * (n % d) then n / d + 1
  else n / d + n / d % 2

-- The exponent of the last binary place kept of `n / d`: 53 places from its leading one, and none
-- below 2^-1074.
def lastPlace (n d : Nat) : Int :=
  let e : Int := (n.log2 : Int) - d.log2
  let leading := if d <<< e.toNat ≤ n <<< (-e).toNat then e else e - 1
  max (-1074) (leading - 52)

-- Rounding up to the next power of two carries into the next block by itself, because ranks of
-- neighbouring blocks are contiguous.
def nearestRank (n d : Nat) : Nat :=
  if n = 0 then 0
  else
    let q := lastPlace n d
    (q + 1074).toNat * blockSize + divEven (n <<< (-q).toNat) (d <<< q.toNat)

def ofRatio (negative : Bool) (n d : Nat) : Binary64 :=
  .number negative ⟨min (nearestRank n d) infinityRank, Nat.lt_succ_of_le (Nat.min_le_right _ _)⟩

def ofInt (i : Int) : Binary64 :=
  ofRatio (i < 0) i.natAbs 1

-- The number nearest to `digits * 10 ^ exponent`. Beyond 310 places before the point everything is
-- infinite and below 330 places after it everything is zero, so no large power is computed there.
def ofDecimal (negative : Bool) (digits : Nat) (exponent : Int) : Binary64 :=
  let length : Int := (Nat.toDigits 10 digits).length
  if digits = 0 || length + exponent < -330 then zero negative
  else if 310 < length + exponent then infinity negative
  else ofRatio negative (digits * Nat.pow 10 exponent.toNat) (Nat.pow 10 (-exponent).toNat)

def productRank (r q : Nat) : Nat :=
  nearestRank ((ratio r).1 * (ratio q).1) ((ratio r).2 * (ratio q).2)

def quotientRank (r q : Nat) : Nat :=
  nearestRank ((ratio r).1 * (ratio q).2) ((ratio r).2 * (ratio q).1)

def toInt? : Binary64 → Option Int
  | nan => none
  | x@(number s r) =>
    let (n, d) := ratio r
    if x.isFinite && n % d == 0 then some (if s then -(n / d : Nat) else (n / d : Nat)) else none

def toInt64? (x : Binary64) : Option Int64 :=
  x.toInt?.bind Word.ofInt?

end Binary64

end Switchboard
