import Mathlib.Data.List.TakeWhile
import Switchboard.Text.Blank

namespace Switchboard.Text

variable {cs l r : List Char}

theorem isAllBlank_nil : isAllBlank [] :=
  rfl

theorem isAllBlank_append : isAllBlank (l ++ r) ↔ isAllBlank l ∧ isAllBlank r := by
  simp [isAllBlank]

theorem isBlank_of_mem {c : Char} (h : isAllBlank cs) (hc : c ∈ cs) : isBlank c :=
  List.all_eq_true.mp h c hc

theorem isAllBlank_reverse : isAllBlank cs.reverse = isAllBlank cs := by
  simp [isAllBlank]

theorem trimEnd_eq_reverse : trimEnd cs = (trimStart cs.reverse).reverse :=
  rfl

theorem trimStart_append_of_isAllBlank (h : isAllBlank l) : trimStart (l ++ cs) = trimStart cs :=
  List.dropWhile_append_of_pos fun _ => isBlank_of_mem h

theorem trimStart_append_of_not_isAllBlank (h : ¬isAllBlank cs) :
    trimStart (cs ++ r) = trimStart cs ++ r := by
  induction cs
  case nil => exact absurd isAllBlank_nil h
  case cons c cs hi =>
    by_cases hc : isBlank c
    case neg => simp [trimStart, hc]
    case pos =>
      have ht : ¬isAllBlank cs := fun ht => h (by simp_all [isAllBlank])
      simpa [trimStart, hc] using hi ht

theorem trimStart_eq_nil_iff : trimStart cs = [] ↔ isAllBlank cs := by
  simp [trimStart, isAllBlank, List.dropWhile_eq_nil_iff]

theorem trimStart_eq_self_iff : trimStart cs = cs ↔ ∀ c ∈ cs.head?, ¬isBlank c := by
  cases cs
  case nil => simp [trimStart]
  case cons c cs =>
    by_cases hc : isBlank c
    case neg => simp [trimStart, hc]
    case pos =>
      have hl := length_trimStart_le cs
      have hn : trimStart cs ≠ c :: cs := fun h => absurd hl (by simp [h])
      simpa [trimStart, hc] using hn

theorem trimEnd_append_of_isAllBlank (h : isAllBlank r) : trimEnd (cs ++ r) = trimEnd cs := by
  simp [trimEnd_eq_reverse, trimStart_append_of_isAllBlank, isAllBlank_reverse, h]

theorem trimEnd_append_of_not_isAllBlank (h : ¬isAllBlank cs) :
    trimEnd (l ++ cs) = l ++ trimEnd cs := by
  simp [trimEnd_eq_reverse, trimStart_append_of_not_isAllBlank, isAllBlank_reverse, h]

theorem trimEnd_eq_self_iff : trimEnd cs = cs ↔ ∀ c ∈ cs.getLast?, ¬isBlank c := by
  rw [trimEnd_eq_reverse, List.reverse_eq_iff, trimStart_eq_self_iff, List.head?_reverse]

theorem trim_eq_self_iff :
    trim cs = cs ↔ (∀ c ∈ cs.head?, ¬isBlank c) ∧ ∀ c ∈ cs.getLast?, ¬isBlank c := by
  rw [← trimStart_eq_self_iff, ← trimEnd_eq_self_iff]
  constructor
  case mp =>
    intro h
    have hs : trimStart cs = cs := by
      have hl := length_trimEnd_le (trimStart cs)
      rw [← trim, h] at hl
      exact (List.dropWhile_suffix _).eq_of_length_le hl
    exact ⟨hs, by rwa [trim, hs] at h⟩
  case mpr =>
    intro ⟨hs, he⟩
    rw [trim, hs, he]

theorem trim_cons_append_singleton {c d : Char} (hc : ¬isBlank c) (hd : ¬isBlank d) :
    trim (c :: cs ++ [d]) = c :: cs ++ [d] := by
  rw [trim_eq_self_iff, List.getLast?_concat]
  simp_all

theorem trim_append_append (hl : isAllBlank l) (hr : isAllBlank r) :
    trim (l ++ cs ++ r) = trim cs := by
  rw [trim, List.append_assoc, trimStart_append_of_isAllBlank hl]
  by_cases hc : isAllBlank cs
  case pos =>
    have hs : trimStart (cs ++ r) = [] := trimStart_eq_nil_iff.mpr (isAllBlank_append.mpr ⟨hc, hr⟩)
    rw [trim, hs, trimStart_eq_nil_iff.mpr hc]
  case neg =>
    rw [trimStart_append_of_not_isAllBlank hc, trimEnd_append_of_isAllBlank hr, trim]

theorem exists_eq_append_trimStart (cs : List Char) :
    ∃ l, isAllBlank l ∧ cs = l ++ trimStart cs :=
  ⟨cs.takeWhile isBlank, List.all_takeWhile, List.takeWhile_append_dropWhile.symm⟩

theorem exists_eq_trimEnd_append (cs : List Char) : ∃ r, isAllBlank r ∧ cs = trimEnd cs ++ r := by
  have ⟨l, hl, h⟩ := exists_eq_append_trimStart cs.reverse
  refine ⟨l.reverse, by rwa [isAllBlank_reverse], ?_⟩
  rw [trimEnd_eq_reverse, ← List.reverse_append, ← h, List.reverse_reverse]

theorem exists_eq_append_trim_append (cs : List Char) :
    ∃ l r, isAllBlank l ∧ isAllBlank r ∧ cs = l ++ trim cs ++ r := by
  have ⟨l, hl, h⟩ := exists_eq_append_trimStart cs
  have ⟨r, hr, h'⟩ := exists_eq_trimEnd_append (trimStart cs)
  refine ⟨l, r, hl, hr, ?_⟩
  rw [trim, List.append_assoc, ← h', ← h]

theorem trim_infix (cs : List Char) : trim cs <:+: cs := by
  have ⟨l, r, _, _, h⟩ := exists_eq_append_trim_append cs
  exact ⟨l, r, h.symm⟩

theorem trim_eq_nil_iff : trim cs = [] ↔ isAllBlank cs := by
  constructor
  case mp =>
    intro h
    have ⟨l, r, hl, hr, hc⟩ := exists_eq_append_trim_append cs
    rw [hc, h, List.append_nil]
    exact isAllBlank_append.mpr ⟨hl, hr⟩
  case mpr =>
    intro h
    rw [trim, trimStart_eq_nil_iff.mpr h]
    rfl

theorem trim_trimStart : trim (trimStart cs) = trim cs := by
  have ⟨l, hl, h⟩ := exists_eq_append_trimStart cs
  have ht : trim (l ++ trimStart cs ++ []) = trim (trimStart cs) :=
    trim_append_append hl isAllBlank_nil
  rw [← ht, List.append_nil, ← h]

theorem trim_trimEnd : trim (trimEnd cs) = trim cs := by
  have ⟨r, hr, h⟩ := exists_eq_trimEnd_append cs
  have ht : trim ([] ++ trimEnd cs ++ r) = trim (trimEnd cs) :=
    trim_append_append isAllBlank_nil hr
  rw [← ht, List.nil_append, ← h]

theorem trim_trim : trim (trim cs) = trim cs := by
  have ⟨l, r, hl, hr, h⟩ := exists_eq_append_trim_append cs
  have ht : trim (l ++ trim cs ++ r) = trim (trim cs) := trim_append_append hl hr
  rw [← h] at ht
  exact ht.symm

end Switchboard.Text
