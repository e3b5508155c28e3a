import Switchboard.Value.Json

namespace Switchboard

namespace Json

mutual

-- Integers from 2^63 on become doubles, but inside objects everything stays as it is.
def narrowed : Json → Json
  | whole i  => if i.val < 0x8000000000000000 then whole i else ofBinary64 (.ofInt i.val)
  | array xs => array (narrowedAll xs)
  | x        => x

def narrowedAll : List Json → List Json
  | []      => []
  | x :: xs => x.narrowed :: narrowedAll xs

end

variable {xs : List Json} {i : Whole} {n : Int64}

theorem narrowedAll_eq_map : narrowedAll xs = xs.map narrowed := by
  induction xs
  case nil          => rfl
  case cons x xs hi => rw [narrowedAll, hi, List.map_cons]

theorem ofInt64_eq_whole (h : n.toInt = i.val) : ofInt64 n = whole i := by
  rw [ofInt64]
  congr 1
  exact Subtype.ext h

theorem ofBinary64_eq_real (x : Real) : ofBinary64 x.val = real x := by
  rw [ofBinary64, dif_pos x.property]

end Json

namespace Value

open Json

theorem toItems_eq_map {vs : List Value} : toItems vs = vs.map toJson := by
  induction vs
  case nil          => rfl
  case cons v vs hi => rw [toItems, hi, List.map_cons]

theorem toJson_whole (i : Whole) :
    ((Word.ofInt? i.val).elim (float (.ofInt i.val)) int).toJson = (whole i).narrowed := by
  rw [narrowed]
  cases hn : Word.ofInt? i.val
  case some n =>
    have hi := Word.ofInt?_eq_some_iff.mp hn
    rw [if_pos (hi ▸ n.toInt_lt)]
    exact ofInt64_eq_whole hi
  case none =>
    have hi : ¬i.val < 0x8000000000000000 := by
      intro hi
      simp [Word.ofInt?, i.property.left, hi] at hn
    rw [if_neg hi]
    rfl

mutual

-- The identities of objects do not show.
theorem toJson_ofJson : ∀ (x : Json) (n : Nat), (ofJson n x).1.toJson = x.narrowed
  | .whole i, _ => toJson_whole i
  | .real x, _ => ofBinary64_eq_real x
  | .array xs, n => congrArg array (toItems_ofItems xs n)
  | .null, _ | .bool _, _ | .text _, _ | .object _, _ => rfl

theorem toItems_ofItems : ∀ (xs : List Json) (n : Nat),
    toItems (ofItems n xs).1 = narrowedAll xs
  | [], _ => rfl
  | x :: xs, n => by
    rw [narrowedAll, ← toJson_ofJson x n, ← toItems_ofItems xs (ofJson n x).2]
    rfl

end

end Value

end Switchboard
