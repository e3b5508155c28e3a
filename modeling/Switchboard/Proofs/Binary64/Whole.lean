import Mathlib.Data.Nat.Digits.Defs
import Switchboard.Binary64

namespace Switchboard.Binary64

variable {a b d n : Nat} {s t : Bool}

theorem div_le_divEven : n / d ≤ divEven n d := by
  unfold divEven
  repeat' split
  all_goals omega

theorem divEven_le : divEven n d ≤ n / d + 1 := by
  unfold divEven
  repeat' split
  all_goals omega

theorem lastPlace_one (hn : n ≠ 0) : lastPlace n 1 = n.log2 - 52 := by
  have hl : 1 <<< n.log2 ≤ n := by
    rw [Nat.one_shiftLeft]
    exact Nat.log2_self_le hn
  have he : (n.log2 : Int) - (Nat.log2 1 : Nat) = n.log2 := by
    rw [show Nat.log2 1 = 0 from rfl]
    exact Int.sub_zero _
  have hd : (-(n.log2 : Int)).toNat = 0 := by omega
  simp only [lastPlace, he, Int.toNat_natCast, hd, Nat.shiftLeft_zero, hl, if_true]
  omega

theorem nearestRank_one (hn : n ≠ 0) :
    nearestRank n 1 =
      (n.log2 + 1022) * blockSize + divEven (n <<< (52 - n.log2)) (1 <<< (n.log2 - 52)) := by
  have hb : ((n.log2 : Int) - 52 + 1074).toNat = n.log2 + 1022 := by omega
  have hl : (-((n.log2 : Int) - 52)).toNat = 52 - n.log2 := by omega
  have hr : ((n.log2 : Int) - 52).toNat = n.log2 - 52 := by omega
  simp only [nearestRank, if_neg hn, lastPlace_one hn, hb, hl, hr]

-- The significand has 53 places, or is the next power of two.
theorem significand_bounds (hn : n ≠ 0) :
    blockSize ≤ divEven (n <<< (52 - n.log2)) (1 <<< (n.log2 - 52)) ∧
      divEven (n <<< (52 - n.log2)) (1 <<< (n.log2 - 52)) ≤ 2 * blockSize := by
  have hd : 0 < 2 ^ (n.log2 - 52) := Nat.two_pow_pos _
  have he : blockSize * 2 ^ (n.log2 - 52) = 2 ^ n.log2 * 2 ^ (52 - n.log2) := by
    rw [show blockSize = 2 ^ 52 from rfl, ← Nat.pow_add, ← Nat.pow_add]
    congr 1
    omega
  have hl : 2 ^ n.log2 * 2 ^ (52 - n.log2) ≤ n * 2 ^ (52 - n.log2) :=
    Nat.mul_le_mul_right _ (Nat.log2_self_le hn)
  have hr : n * 2 ^ (52 - n.log2) < 2 ^ (n.log2 + 1) * 2 ^ (52 - n.log2) :=
    Nat.mul_lt_mul_of_pos_right Nat.lt_log2_self (Nat.two_pow_pos _)
  rw [Nat.one_shiftLeft, Nat.shiftLeft_eq]
  constructor
  case left =>
    refine Nat.le_trans ?_ div_le_divEven
    exact (Nat.le_div_iff_mul_le hd).mpr (he ▸ hl)
  case right =>
    refine Nat.le_trans divEven_le (Nat.succ_le_of_lt ((Nat.div_lt_iff_lt_mul hd).mpr ?_))
    calc
      _ < 2 ^ (n.log2 + 1) * 2 ^ (52 - n.log2) := hr
      _ = 2 * (2 ^ n.log2 * 2 ^ (52 - n.log2)) := by rw [Nat.pow_succ']; exact Nat.mul_assoc ..
      _ = 2 * blockSize * 2 ^ (n.log2 - 52)    := by rw [← he]; exact (Nat.mul_assoc ..).symm

theorem nearestRank_bounds (hn : n ≠ 0) :
    (n.log2 + 1023) * blockSize ≤ nearestRank n 1 ∧
      nearestRank n 1 ≤ (n.log2 + 1024) * blockSize := by
  have ⟨hl, hr⟩ := significand_bounds hn
  rw [nearestRank_one hn]
  constructor <;> linarith

theorem log2_eq_of_le {k : Nat} (hl : 2 ^ k ≤ n) (hr : n < 2 ^ (k + 1)) : n.log2 = k :=
  (Nat.log2_eq_iff (Nat.ne_of_gt (Nat.lt_of_lt_of_le (Nat.two_pow_pos k) hl))).mpr ⟨hl, hr⟩

def wordEndRank : Nat :=
  1086 * blockSize

-- From 2^63 on the doubles are 2048 apart, and there is a tie halfway.
theorem nearestRank_of_ge (h : 2 ^ 63 ≤ b) :
    wordEndRank ≤ nearestRank b 1 ∧ (nearestRank b 1 = wordEndRank ↔ b ≤ 2 ^ 63 + 1024) := by
  by_cases hb : b < 2 ^ 64
  case pos =>
    have hl : b.log2 = 63 := log2_eq_of_le h hb
    rw [nearestRank_one (by omega), hl, Nat.shiftLeft_zero, show 1 <<< (63 - 52) = 2048 from rfl]
    simp only [wordEndRank, blockSize, divEven]
    repeat' split
    all_goals omega
  case neg =>
    have h0 : b ≠ 0 := by omega
    have hl : 64 ≤ b.log2 := (Nat.le_log2 h0).mpr (by omega)
    have hr : wordEndRank < nearestRank b 1 := by
      calc
        _ < 1087 * blockSize            := by decide
        _ ≤ (b.log2 + 1023) * blockSize := Nat.mul_le_mul_right _ (by omega)
        _ ≤ nearestRank b 1             := (nearestRank_bounds h0).left
    omega

theorem nearestRank_lt_of_lt (h : a < 2 ^ 62) : nearestRank a 1 < wordEndRank := by
  by_cases h0 : a = 0
  case pos =>
    rw [nearestRank, if_pos h0]
    decide
  case neg =>
    have hl : a.log2 < 62 := (Nat.log2_lt h0).mpr h
    calc
      _ ≤ (a.log2 + 1024) * blockSize := (nearestRank_bounds h0).right
      _ ≤ 1085 * blockSize            := Nat.mul_le_mul_right _ (by omega)
      _ < wordEndRank                 := by decide

-- Below 2^63 the doubles are 1024 apart, and there is a tie halfway.
theorem nearestRank_of_le (h : a ≤ 2 ^ 63) :
    nearestRank a 1 ≤ wordEndRank ∧ (nearestRank a 1 = wordEndRank ↔ 2 ^ 63 - 512 ≤ a) := by
  by_cases he : a = 2 ^ 63
  case pos =>
    have hr := nearestRank_of_ge (Nat.le_of_eq he.symm)
    omega
  case neg =>
  by_cases ha : a < 2 ^ 62
  case pos =>
    have hr := nearestRank_lt_of_lt ha
    omega
  case neg =>
    have hl : a.log2 = 62 := log2_eq_of_le (by omega) (by omega)
    rw [nearestRank_one (by omega), hl, Nat.shiftLeft_zero, show 1 <<< (62 - 52) = 1024 from rfl]
    simp only [wordEndRank, blockSize, divEven]
    repeat' split
    all_goals omega

-- Of two whole numbers on different sides of 2^63, both have to round to it to be equal.
theorem equals_ofRatio_iff (ha : a ≤ 2 ^ 63) (hb : 2 ^ 63 ≤ b) :
    (ofRatio s a 1).equals (ofRatio t b 1) ↔ s = t ∧ 2 ^ 63 - 512 ≤ a ∧ b ≤ 2 ^ 63 + 1024 := by
  obtain ⟨hra, hea⟩ := nearestRank_of_le ha
  obtain ⟨hrb, heb⟩ := nearestRank_of_ge hb
  have hw : 0 < wordEndRank ∧ wordEndRank < infinityRank := by decide
  rw [← hea, ← heb]
  simp only [ofRatio, equals, Bool.and_eq_true, Bool.or_eq_true, beq_iff_eq, Fin.ext_iff,
    Fin.val_zero]
  constructor
  case mp =>
    rintro ⟨hr, hs⟩
    obtain ⟨ha, hb⟩ : nearestRank a 1 = wordEndRank ∧ nearestRank b 1 = wordEndRank := by omega
    exact ⟨hs.resolve_right (by omega), ha, hb⟩
  case mpr =>
    rintro ⟨hs, ha, hb⟩
    exact ⟨by rw [ha, hb], .inl hs⟩

theorem ofRatio_of_le_log2 (hn : n ≠ 0) (h : 1024 ≤ n.log2) : ofRatio s n 1 = infinity s := by
  have hr : infinityRank ≤ nearestRank n 1 :=
    calc
      _ ≤ (n.log2 + 1023) * blockSize := Nat.mul_le_mul_right _ (Nat.add_le_add_right h 1023)
      _ ≤ nearestRank n 1             := (nearestRank_bounds hn).left
  simp only [ofRatio, infinity, Nat.min_eq_right hr]

-- Numbers of more digits than doubles reach are infinite without being rounded.
theorem ofDecimal_zero (hn : n ≠ 0) : ofDecimal s n 0 = ofRatio s n 1 := by
  have hp : ¬((Nat.toDigits 10 n).length : Int) + 0 < -330 := by omega
  simp only [ofDecimal, hn, hp, decide_false, Bool.or_self, Bool.false_eq_true, if_false]
  split
  case isTrue h =>
    have hd : 10 ^ 310 ≤ n := by
      refine Nat.le_of_not_lt fun hc => ?_
      have hl := Nat.toDigits_length 10 n 310 (by decide) hc
      omega
    have hl : 1024 ≤ n.log2 := by
      rw [Nat.le_log2 hn]
      exact Nat.le_trans (by decide +kernel) hd
    exact (ofRatio_of_le_log2 hn hl).symm
  case isFalse h => simp

end Switchboard.Binary64
