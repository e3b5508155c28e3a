import Switchboard.Proofs.Binary64.Whole
import Switchboard.Proofs.Value.Equality

namespace Switchboard

namespace Binary64

variable {a b : Nat} {i j : Int}

-- Below 2^53 nothing is rounded away, and each power of two has a block of ranks to itself.
theorem nearestRank_of_log2_le (ha : a ≠ 0) (hl : a.log2 ≤ 52) :
    nearestRank a 1 = (a.log2 + 1022) * blockSize + a * 2 ^ (52 - a.log2) := by
  have hd : a.log2 - 52 = 0 := Nat.sub_eq_zero_of_le hl
  rw [nearestRank_one ha, hd]
  simp [divEven, Nat.shiftLeft_eq, Nat.mod_one]

theorem nearestRank_lt_of_log2_le (ha : a ≠ 0) (hl : a.log2 ≤ 52) :
    nearestRank a 1 < (a.log2 + 1024) * blockSize := by
  have hp : 0 < 2 ^ (52 - a.log2) := Nat.two_pow_pos _
  have he : a.log2 + 1 + (52 - a.log2) = 53 := by omega
  have hs : a * 2 ^ (52 - a.log2) < 2 * blockSize :=
    calc
      _ < 2 ^ (a.log2 + 1) * 2 ^ (52 - a.log2) := Nat.mul_lt_mul_of_pos_right Nat.lt_log2_self hp
      _ = 2 * blockSize                        := by rw [← Nat.pow_add, he]; rfl
  have hr := nearestRank_of_log2_le ha hl
  linarith

theorem log2_le_of_nearestRank_eq (ha : a ≠ 0) (hb : b ≠ 0) (hl : a.log2 ≤ 52)
    (h : nearestRank a 1 = nearestRank b 1) : b.log2 ≤ a.log2 := by
  have hr : (b.log2 + 1023) * blockSize < (a.log2 + 1024) * blockSize :=
    calc
      _ ≤ nearestRank b 1             := (nearestRank_bounds hb).left
      _ = nearestRank a 1             := h.symm
      _ < (a.log2 + 1024) * blockSize := nearestRank_lt_of_log2_le ha hl
  have hk := Nat.lt_of_mul_lt_mul_right hr
  omega

theorem nearestRank_pos (ha : a ≠ 0) : 0 < nearestRank a 1 :=
  calc
    _ < (a.log2 + 1023) * blockSize := Nat.mul_pos (Nat.succ_pos _) (by decide)
    _ ≤ nearestRank a 1             := (nearestRank_bounds ha).left

theorem eq_of_nearestRank_eq (hl : a < 2 ^ 53) (h : nearestRank a 1 = nearestRank b 1) :
    a = b := by
  by_cases ha : a = 0
  case pos =>
    subst ha
    by_contra hb
    exact absurd h (Nat.ne_of_lt (nearestRank_pos (Ne.symm hb)))
  case neg =>
    have hb : b ≠ 0 := by
      intro hb
      subst hb
      exact absurd h (Nat.ne_of_gt (nearestRank_pos ha))
    have hla : a.log2 ≤ 52 := Nat.le_of_lt_succ ((Nat.log2_lt ha).mpr hl)
    have hba := log2_le_of_nearestRank_eq ha hb hla h
    have hab := log2_le_of_nearestRank_eq hb ha (hba.trans hla) h.symm
    have he : a.log2 = b.log2 := Nat.le_antisymm hab hba
    rw [nearestRank_of_log2_le ha hla, nearestRank_of_log2_le hb (he ▸ hla), he] at h
    exact Nat.eq_of_mul_eq_mul_right (Nat.two_pow_pos _) (Nat.add_left_cancel h)

theorem nearestRank_lt_infinityRank (hl : a < 2 ^ 53) : nearestRank a 1 < infinityRank := by
  by_cases ha : a = 0
  case pos =>
    rw [ha]
    decide
  case neg =>
    have hla : a.log2 ≤ 52 := Nat.le_of_lt_succ ((Nat.log2_lt ha).mpr hl)
    calc
      _ < (a.log2 + 1024) * blockSize := nearestRank_lt_of_log2_le ha hla
      _ ≤ infinityRank                := Nat.mul_le_mul_right _ (by omega)

theorem eq_of_equals_ofInt (hi : i.natAbs < 2 ^ 53) (h : (ofInt i).equals (ofInt j)) : i = j := by
  have hf := nearestRank_lt_infinityRank hi
  simp only [ofInt, ofRatio, equals, Bool.and_eq_true, Bool.or_eq_true, beq_iff_eq, Fin.ext_iff,
    Fin.val_zero, decide_eq_decide, Nat.min_eq_left (Nat.le_of_lt hf)] at h
  obtain ⟨hr, hs⟩ := h
  have ha : i.natAbs = j.natAbs := eq_of_nearestRank_eq hi (by omega)
  have hz : nearestRank i.natAbs 1 = 0 → i = 0 := by
    intro h0
    by_contra hn
    exact absurd h0 (Nat.ne_of_gt (nearestRank_pos (Int.natAbs_ne_zero.mpr hn)))
  omega

end Binary64

namespace Value

-- `u` and `w` have two integers at one place, and `v` has the double there that both round to.
def Blurs (v u w : Value) : Prop :=
  ∃ is i j x, u.at? is = some (int i) ∧ v.at? is = some (float x) ∧ w.at? is = some (int j) ∧
    i ≠ j ∧ (Binary64.ofInt i.toInt).equals x ∧ (Binary64.ofInt j.toInt).equals x ∧
    2 ^ 53 ≤ i.toInt.natAbs ∧ 2 ^ 53 ≤ j.toInt.natAbs

variable {u v w : Value} {us vs ws : List Value}

mutual

theorem equals_comm : ∀ v w : Value, v.equals w = w.equals v
  | list vs, list ws => equalsAll_comm vs ws
  | v, w => by
    cases v <;> cases w
    case list.list vs ws => exact equalsAll_comm vs ws
    all_goals simp [equals, Binary64.equals_comm, Bool.beq_comm]

theorem equalsAll_comm : ∀ vs ws : List Value, equalsAll vs ws = equalsAll ws vs
  | [], [] | [], _ :: _ | _ :: _, [] => rfl
  | v :: vs, w :: ws => by rw [equalsAll, equalsAll, equals_comm v w, equalsAll_comm vs ws]

end

theorem Blurs.head (h : v.Blurs u w) : (list (v :: vs)).Blurs (list (u :: us)) (list (w :: ws)) :=
  have ⟨is, i, j, x, hu, hv, hw, h⟩ := h
  ⟨0 :: is, i, j, x, hu, hv, hw, h⟩

theorem Blurs.tail (h : (list vs).Blurs (list us) (list ws)) :
    (list (v :: vs)).Blurs (list (u :: us)) (list (w :: ws)) := by
  have ⟨is, i, j, x, hu, hv, hw, h⟩ := h
  cases is
  case nil       => cases hu
  case cons k is => exact ⟨(k + 1) :: is, i, j, x, hu, hv, hw, h⟩

theorem eq_of_not_blurs {i j : Int64} {x : Binary64} (hi : (Binary64.ofInt i.toInt).equals x)
    (hj : (Binary64.ofInt j.toInt).equals x) (hb : ¬(float x).Blurs (int i) (int j)) : i = j := by
  have he : (Binary64.ofInt i.toInt).equals (.ofInt j.toInt) := by
    rw [Binary64.equals_congr hi, Binary64.equals_comm]
    exact hj
  by_contra hn
  have hne : i.toInt ≠ j.toInt := fun h => hn (Int64.toInt_inj.mp h)
  refine hb ⟨[], i, j, x, rfl, rfl, rfl, hn, hi, hj, ?_, ?_⟩
  case refine_1 =>
    by_contra hl
    exact hne (Binary64.eq_of_equals_ofInt (Nat.lt_of_not_le hl) he)
  case refine_2 =>
    by_contra hl
    rw [Binary64.equals_comm] at he
    exact hne (Binary64.eq_of_equals_ofInt (Nat.lt_of_not_le hl) he).symm

theorem float_equals_int (x : Binary64) (i : Int64) :
    (float x).equals (int i) = x.equals (.ofInt i.toInt) :=
  Binary64.equals_comm _ _

theorem equals_trans_of_list? (hu : u.list? = none) (h : u.equals v) (h' : v.equals w)
    (hb : ¬v.Blurs u w) : u.equals w := by
  have hx : ∀ {x y z : Binary64}, x.equals y → y.equals z → x.equals z :=
    fun h h' => (Binary64.equals_congr h _).trans h'
  cases u <;> cases v <;> try cases h
  case list => cases hu
  case int.int i j =>
    cases beq_iff_eq.mp h
    exact h'
  case int.float i x =>
    cases w
    case int j   => exact beq_iff_eq.mpr (eq_of_not_blurs h h' hb)
    case float y => exact hx h h'
    all_goals cases h'
  case float.int x i =>
    rw [float_equals_int] at h
    cases w
    case int j   =>
      cases beq_iff_eq.mp h'
      exact (float_equals_int x i).trans h
    case float y => exact hx h h'
    all_goals cases h'
  case float.float x y =>
    cases w
    case int j   =>
      rw [float_equals_int] at h' ⊢
      exact hx h h'
    case float z => exact hx h h'
    all_goals cases h'
  -- All others are equal only to what has the same contents or the same identity.
  all_goals
    cases w <;> simp_all [equals]

mutual

theorem equals_trans : ∀ (u : Value) {v w : Value}, u.equals v → v.equals w → ¬v.Blurs u w →
    u.equals w
  | list us, v, w, h, h', hb => by
    have ⟨vs, hv, hs⟩ := equals_list_iff.mp h
    subst hv
    have ⟨ws, hw, hs'⟩ := equals_list_iff.mp h'
    subst hw
    exact equals_list_iff.mpr ⟨ws, rfl, forall₂_equals_trans us hs hs' hb⟩
  | null, _, _, h, h', hb | bool _, _, _, h, h', hb | int _, _, _, h, h', hb
  | float _, _, _, h, h', hb | text _, _, _, h, h', hb | object _, _, _, h, h', hb =>
    equals_trans_of_list? rfl h h' hb

theorem forall₂_equals_trans : ∀ (us : List Value) {vs ws : List Value},
    List.Forall₂ (·.equals ·) us vs → List.Forall₂ (·.equals ·) vs ws →
    ¬(list vs).Blurs (list us) (list ws) → List.Forall₂ (·.equals ·) us ws
  | [], _, _, .nil, .nil, _ => .nil
  | u :: us, _, _, .cons h hs, .cons h' hs', hb =>
    .cons (equals_trans u h h' (mt .head hb)) (forall₂_equals_trans us hs hs' (mt .tail hb))

end

theorem Blurs.not_equals (h : v.Blurs u w) : ¬u.equals w := by
  have ⟨is, i, j, x, hu, _, hw, hn, _⟩ := h
  intro he
  have hr : Option.Rel (·.equals ·) (u.at? is) (w.at? is) := at?_of_equals he
  rw [hu, hw] at hr
  cases hr
  case some hi => exact hn (beq_iff_eq.mp hi)

theorem not_equals_trans :
    ¬∀ u v w : Value, (u.equals v → v.equals u) ∧ (u.equals v → v.equals w → u.equals w) := by
  intro h
  have hn := (h (int 9007199254740992) (float (.ofInt 9007199254740992))
    (int 9007199254740993)).right (by decide +kernel) (by decide +kernel)
  exact absurd hn (by decide)

-- Equality is symmetric, and transitive if and only if nothing is blurred.
theorem equals_symm_trans :
    (∀ u v : Value, u.equals v → v.equals u) ∧
    ∀ u v w : Value, u.equals v → v.equals w → (u.equals w ↔ ¬v.Blurs u w) := by
  constructor
  case left =>
    intro u v h
    rwa [equals_comm]
  case right =>
    intro u v w h h'
    exact ⟨fun he hb => hb.not_equals he, equals_trans u h h'⟩

-- A double between two integers that are one does no harm.
theorem equals_symm_trans_nested :
    (list [int 9007199254740993, int 1]).equals
        (list [float (.ofInt 9007199254740992), float (.ofInt 1)]) ∧
      (list [float (.ofInt 9007199254740992), float (.ofInt 1)]).equals
        (list [int 9007199254740993, int 1]) ∧
      ¬(list [float (.ofInt 9007199254740992), float (.ofInt 1)]).Blurs
        (list [int 9007199254740993, int 1]) (list [int 9007199254740993, int 1]) := by
  have h : (list [int 9007199254740993, int 1]).equals
      (list [float (.ofInt 9007199254740992), float (.ofInt 1)]) := by
    decide +kernel
  have h' := equals_symm_trans.left _ _ h
  exact ⟨h, h', (equals_symm_trans.right _ _ _ h h').mp (by decide +kernel)⟩

end Value

end Switchboard
