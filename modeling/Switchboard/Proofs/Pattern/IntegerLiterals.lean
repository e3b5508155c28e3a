import Switchboard.Proofs.Binary64.Whole
import Switchboard.Proofs.Pattern.NumericLiterals
import Switchboard.Routes.Match

namespace Switchboard

variable {s : String} {n : Int} {i : Int64}

open Decimal (Denotes)

namespace Constant

theorem ofText_of_ofInt?_eq_some (h : Denotes s.toList n) (hi : Word.ofInt? n = some i) :
    ofText s = .int i := by
  simp [ofText_eq, Decimal.integer?_eq_some_iff.mpr h, hi]

theorem ofText_of_ofInt?_eq_none (h : Denotes s.toList n) (hi : Word.ofInt? n = none) :
    ofText s = .float (.ofInt n) := by
  have hn : n ≠ 0 := by
    have hr := Word.ofInt?_eq_none_iff.mp hi
    omega
  have hx : Binary64.ofDecimal (n < 0) n.natAbs 0 = .ofInt n :=
    Binary64.ofDecimal_zero (Int.natAbs_ne_zero.mpr hn)
  simp [ofText_eq, Decimal.integer?_eq_some_iff.mpr h, hi, h.read? hn,
    Decimal.Numeral.toBinary64, hx]

end Constant

namespace Literal

theorem ofText_accepts_int_iff (h : Denotes s.toList n) :
    (ofText s).accepts (.int i) ↔
      i.toInt = n ∨
      (2 ^ 63 ≤ n ∧ n ≤ 2 ^ 63 + 1024 ∧ 2 ^ 63 - 512 ≤ i.toInt) ∨
      (n < -2 ^ 63 ∧ -2 ^ 63 - 1024 ≤ n ∧ i.toInt ≤ -2 ^ 63 + 512) := by
  have hl : -2 ^ 63 ≤ i.toInt := i.le_toInt
  have hr : i.toInt < 2 ^ 63 := i.toInt_lt
  cases hn : Word.ofInt? n
  case none =>
    have ho := Word.ofInt?_eq_none_iff.mp hn
    have ha : i.toInt.natAbs ≤ 2 ^ 63 := by omega
    have hb : 2 ^ 63 ≤ n.natAbs := by omega
    simp only [accepts, ofText, Constant.ofText_of_ofInt?_eq_none h hn, Constant.toBinary64?,
      Option.any_some, Binary64.ofInt, Binary64.equals_ofRatio_iff ha hb, decide_eq_decide]
    omega
  case some j =>
    have hj : j.toInt = n := Word.ofInt?_eq_some_iff.mp hn
    have hlj : -2 ^ 63 ≤ j.toInt := j.le_toInt
    have hrj : j.toInt < 2 ^ 63 := j.toInt_lt
    simp only [accepts, ofText, Constant.ofText_of_ofInt?_eq_some h hn, beq_iff_eq,
      ← Int64.toInt_inj, hj]
    omega

-- The least number that spells -2^63 is -2^63 - 1024, halfway to the double below.
theorem ofText_accepts_minValue :
    Denotes "-09223372036854776832".toList (-9223372036854776832) ∧
      (ofText "-09223372036854776832").accepts (.int Int64.minValue) := by
  have h : Denotes "-09223372036854776832".toList (-9223372036854776832) :=
    Decimal.integer?_eq_some_iff.mp (by decide +kernel)
  exact ⟨h, (ofText_accepts_int_iff h).mpr (.inr (.inr (by decide)))⟩

theorem not_ofText_accepts_denoted_only :
    ¬∀ (s : String) (n : Int) (i : Int64), Denotes s.toList n →
      ((ofText s).accepts (.int i) ↔ i.toInt = n) := by
  intro h
  have hd : Denotes "9223372036854775808".toList 9223372036854775808 :=
    Decimal.integer?_eq_some_iff.mp (by decide +kernel)
  have ha : (ofText "9223372036854775808").accepts (.int Int64.maxValue) := by decide +kernel
  exact absurd ((h _ _ _ hd).mp ha) (by decide)

end Literal

end Switchboard
