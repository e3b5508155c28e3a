import Switchboard.Proofs.Pattern.StrictReading

namespace Switchboard

open Nesting (outset start)
open Text (trim)

variable {b : Bracket} {n : Nesting Int} {c : Char} {cs : List Char} {s : String}

theorem findSome?_congr {α β : Type} {as : List α} {f g : α → Option β}
    (h : ∀ a ∈ as, f a = g a) : as.findSome? f = as.findSome? g := by
  induction as
  case nil => rfl
  case cons a as hi =>
    have ⟨ha, hs⟩ := List.forall_mem_cons.mp h
    rw [List.findSome?_cons, List.findSome?_cons, ha, hi hs]

namespace Nesting

theorem natAbs_depth_step_le : (n.step c).depth.natAbs ≤ n.depth.natAbs + 1 := by
  unfold step
  repeat' split
  all_goals grind

theorem natAbs_depth_run_le : (n.run cs).depth.natAbs ≤ n.depth.natAbs + cs.length := by
  induction cs generalizing n
  case nil => exact Nat.le_refl _
  case cons c cs hi =>
    calc
      _ ≤ (n.step c).depth.natAbs + cs.length := hi
      _ ≤ n.depth.natAbs + 1 + cs.length      := Nat.add_le_add_right natAbs_depth_step_le _
      _ = n.depth.natAbs + (cs.length + 1)    := by rw [Nat.add_assoc, Nat.add_comm 1]

def wrap (n : Nesting Int) : Nesting Int32 :=
  ⟨n.quoted, .ofInt n.depth⟩

theorem wrap_start : start.wrap = outset Int32 :=
  rfl

theorem wrap_step : (n.step c).wrap = n.wrap.step c := by
  unfold step wrap
  repeat' split
  all_goals simp_all [Int32.ofInt_add, Int32.ofInt_sub]

theorem wrap_run : (n.run cs).wrap = n.wrap.run cs := by
  induction cs generalizing n
  case nil          => rfl
  case cons c cs hi => rw [run_cons, hi, wrap_step, run_cons]

theorem ofInt_eq_zero_iff {d : Int} : Int32.ofInt d = 0 ↔ 0x100000000 ∣ d := by
  rw [Int32.ofInt_eq_iff_bmod_eq_toInt, Int32.toInt_zero]
  exact Int.dvd_iff_bmod_eq_zero.symm

theorem isTop_wrap (h : n.depth.natAbs < 0x100000000) : n.wrap.isTop = n.isTop := by
  have hd : Int32.ofInt n.depth = 0 ↔ n.depth = 0 := by
    rw [ofInt_eq_zero_iff]
    exact ⟨fun hd => Int.eq_zero_of_dvd_of_natAbs_lt_natAbs hd h, fun hz => hz ▸ Int.dvd_zero _⟩
  simp [isTop, wrap, beq_eq_decide, hd]

-- In a text of less than 2 GiB no bracket makes the counter wrap around.
theorem toInt_depth_run (h : cs.length < 0x80000000) :
    ((outset Int32).run cs).depth.toInt = (start.run cs).depth := by
  have hl : (start.run cs).depth.natAbs ≤ 0 + cs.length := natAbs_depth_run_le
  rw [← wrap_start, ← wrap_run]
  exact Int32.toInt_ofInt_of_le (by omega) (by omega)

end Nesting

namespace Bracket

theorem pieces_wrap (h : n.depth.natAbs + cs.length < 0x80000000) :
    b.pieces n.wrap cs = b.pieces n cs := by
  fun_induction pieces b n cs
  case case1 => rw [pieces]
  case case2 n c cs hp hi =>
    have ht : n.wrap.isTop = n.isTop := Nesting.isTop_wrap (by omega)
    rw [pieces, ht, if_pos hp, hi]
    simp only [List.length_drop]
    omega
  case case3 n c cs hp hi =>
    have ht : n.wrap.isTop = n.isTop := Nesting.isTop_wrap (by omega)
    have hs := Nesting.natAbs_depth_step_le (n := n) (c := c)
    rw [List.length_cons] at h
    rw [pieces, ht, if_neg hp, ← Nesting.wrap_step, hi (by omega)]

theorem elementsIn_int32 (h : cs.length < 0x80000000) : b.elementsIn Int32 cs = b.elements cs := by
  have hp : b.pieces start.wrap cs = b.pieces start cs := pieces_wrap (by simpa [outset] using h)
  rw [elements, elementsIn, elementsIn, ← Nesting.wrap_start, hp]

end Bracket

theorem Outline.ofCharsIn_int32 (h : cs.length < 0x80000000) :
    ofCharsIn Int32 cs = ofCharsIn Int cs := by
  have he {c d : Char} {inner : List Char} (hb : between? c d (trim cs) = some inner)
      (b : Bracket) : b.elementsIn Int32 (trim inner) = b.elementsIn Int (trim inner) := by
    have hi := length_of_between? hb
    have ht := Text.length_trim_le inner
    have hc := Text.length_trim_le cs
    exact Bracket.elementsIn_int32 (by omega)
  unfold ofCharsIn ofTrimmedIn
  split
  case isTrue  => rfl
  case isFalse =>
  split
  case h_1 => rfl
  case h_2 =>
  split
  case h_1 hb => rw [he hb]
  case h_2 =>
  split
  case h_1 hb => rw [he hb]
  case h_2    => rfl

namespace Pattern

-- By induction on the length, since elements are shorter than the text that they are cut from.
theorem ofCharsIn_int32 (h : cs.length < 0x80000000) : ofCharsIn Int32 cs = ofCharsIn Int cs := by
  induction hn : cs.length using Nat.strong_induction_on generalizing cs
  case h n hi =>
  subst hn
  have ho := Outline.ofCharsIn_int32 h
  rw [Outline.ofCharsIn, Outline.ofCharsIn] at ho
  rw [ofCharsIn_eq, ofCharsIn_eq, ho]
  split
  case h_3 b es he =>
    refine congrArg _ (List.map_congr_left fun e hm => ?_)
    have hl := Outline.length_lt_of_mem (δ := Int) he hm
    exact hi _ hl (Nat.lt_trans hl h) rfl
  all_goals rfl

theorem flawIn?_int32 (h : cs.length < 0x80000000) : flawIn? Int32 cs = flawIn? Int cs := by
  induction hn : cs.length using Nat.strong_induction_on generalizing cs
  case h n hi =>
  subst hn
  cases cs
  case nil => rw [flawIn?, flawIn?]
  case cons c cs =>
  have he {b : Bracket} : b.enclosedIn? Int32 (c :: cs) = b.enclosedIn? Int (c :: cs) := by
    have ht := Text.length_trim_le cs.dropLast
    have hd : cs.dropLast.length ≤ cs.length := by simp
    rw [List.length_cons] at h
    unfold Bracket.enclosedIn?
    rw [List.drop_one, List.tail_cons, Bracket.elementsIn_int32 (by omega), Bracket.elements]
  simp only [flawIn?_cons, he]
  split
  case isTrue  => rfl
  case isFalse =>
  split
  case isTrue  => rfl
  case isFalse =>
  split
  case h_1 => rfl
  case h_2 =>
  split
  case h_1    => rfl
  case h_2 es hs =>
    refine findSome?_congr fun e hm => ?_
    have hl := Bracket.length_lt_of_mem_enclosedIn? (by simp) hs hm
    rw [hi _ hl (Nat.lt_trans hl h) rfl]

theorem ofStringIn_int32 (h : s.length < 0x80000000) : ofStringIn Int32 s = ofString s :=
  ofCharsIn_int32 (String.length_toList ▸ h)

theorem ofStringStrictIn_int32 (h : s.length < 0x80000000) :
    ofStringStrictIn Int32 s = ofStringStrict s := by
  have ht : (trim s.toList).length < 0x80000000 :=
    Nat.lt_of_le_of_lt (Text.length_trim_le _) (String.length_toList ▸ h)
  rw [ofStringStrictIn, ofStringStrict, flawIn?_int32 ht, ofStringIn_int32 h, flaw?]

end Pattern

end Switchboard
