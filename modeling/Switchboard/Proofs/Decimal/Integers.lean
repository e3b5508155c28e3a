import Mathlib.Data.List.TakeWhile
import Mathlib.Data.Nat.Digits.Defs
import Switchboard.Decimal.Numeral

namespace Switchboard.Decimal

structure IsDigits (ds : List Char) : Prop where
  ne_nil  : ds ≠ []
  isDigit : ∀ c ∈ ds, c.isDigit

-- The number that digits denote by their places, the highest of which is first.
def magnitude (ds : List Char) : Nat :=
  Nat.ofDigits 10 (ds.reverse.map digitValue)

inductive Denotes : List Char → Int → Prop
  | unsigned {ds} : IsDigits ds → Denotes ds (magnitude ds)
  | plus {ds}     : IsDigits ds → Denotes ('+' :: ds) (magnitude ds)
  | minus {ds}    : IsDigits ds → Denotes ('-' :: ds) (-magnitude ds)

variable {cs ds : List Char} {n : Int}

theorem readDigits_zero : readDigits 0 ds = magnitude ds := by
  rw [magnitude, Nat.ofDigits_eq_foldr, List.foldr_map, List.foldr_reverse]
  exact congrArg (fun f => List.foldl f 0 ds) (by ext; simp [Nat.add_comm])

theorem isDigits_iff : IsDigits ds ↔ (ds.isEmpty || !ds.all Char.isDigit) = false := by
  simp only [Bool.or_eq_false_iff, List.isEmpty_eq_false_iff, Bool.not_eq_false', List.all_eq_true]
  exact ⟨fun ⟨hn, hd⟩ => ⟨hn, hd⟩, fun ⟨hn, hd⟩ => ⟨hn, hd⟩⟩

namespace IsDigits

theorem spanDigits_eq (h : IsDigits ds) : spanDigits ds = (ds, []) := by
  simpa [spanDigits, List.takeWhile_eq_self_iff, List.dropWhile_eq_nil_iff] using h.isDigit

theorem spanSign_eq (h : IsDigits ds) : spanSign ds = (false, ds) := by
  unfold spanSign
  split
  case h_1 => exact absurd (h.isDigit '+' List.mem_cons_self) (by decide)
  case h_2 => exact absurd (h.isDigit '-' List.mem_cons_self) (by decide)
  case h_3 => rfl

end IsDigits

theorem denotes_iff :
    Denotes cs n ↔ IsDigits (spanSign cs).2 ∧
      n = if (spanSign cs).1 then -(magnitude (spanSign cs).2 : Int)
          else magnitude (spanSign cs).2 := by
  constructor
  case mp =>
    intro h
    cases h
    case unsigned hd => simp [hd.spanSign_eq, hd]
    case plus hd     => exact ⟨hd, rfl⟩
    case minus hd    => exact ⟨hd, rfl⟩
  case mpr =>
    intro ⟨hd, hn⟩
    subst hn
    unfold spanSign at *
    split at hd
    case h_1 => exact .plus hd
    case h_2 => exact .minus hd
    case h_3 => exact .unsigned hd

theorem integer?_eq_some_iff : integer? cs = some n ↔ Denotes cs n := by
  rw [denotes_iff]
  by_cases hd : IsDigits (spanSign cs).2
  case pos =>
    simp only [integer?, isDigits_iff.mp hd, hd, Bool.false_eq_true, if_false, readDigits_zero,
      Option.some.injEq, true_and]
    exact eq_comm
  case neg =>
    have ht := eq_true_of_ne_false (isDigits_iff.not.mp hd)
    simp only [integer?, ht, hd, if_true, reduceCtorEq,
      false_and]

theorem natural?_eq_some_iff {k : Nat} :
    natural? cs = some k ↔ ∃ ds, (cs = ds ∨ cs = '+' :: ds) ∧ IsDigits ds ∧ magnitude ds = k := by
  have hr : ∀ ds, (if ds.isEmpty || !ds.all Char.isDigit then none else some (readDigits 0 ds)) =
      some k ↔ IsDigits ds ∧ magnitude ds = k := by
    intro ds
    rw [isDigits_iff, readDigits_zero]
    cases ds.isEmpty || !ds.all Char.isDigit <;> simp
  unfold natural?
  split
  case h_1 ds =>
    rw [hr]
    constructor
    case mp => exact fun h => ⟨ds, .inr rfl, h⟩
    case mpr =>
      rintro ⟨es, rfl | he, hd, hk⟩
      · exact absurd (hd.isDigit '+' List.mem_cons_self) (by decide)
      · cases he
        exact ⟨hd, hk⟩
  case h_2 ds hp =>
    rw [hr]
    constructor
    case mp => exact fun h => ⟨cs, .inl rfl, h⟩
    case mpr =>
      rintro ⟨es, rfl | he, h⟩
      · exact h
      · exact absurd he (hp es)

-- Minus zero keeps its sign.
theorem Denotes.read? (h : Denotes cs n) (hz : n ≠ 0) :
    Numeral.read? cs = some { negative := n < 0, digits := n.natAbs, exponent := 0 } := by
  have ⟨hd, hn⟩ := denotes_iff.mp h
  have hs : (spanSign cs).1 = decide (n < 0) := by
    cases hs : (spanSign cs).1 <;> simp [hs] at hn ⊢ <;> omega
  have ha : magnitude (spanSign cs).2 = n.natAbs := by
    cases hs : (spanSign cs).1 <;> simp [hs] at hn <;> omega
  simp [Numeral.read?, hd.spanDigits_eq, hd.ne_nil, Numeral.exponentPart?, readDigits_zero, hs, ha]

end Switchboard.Decimal
