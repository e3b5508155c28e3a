import Mathlib.Data.List.Basic
import Switchboard.Proofs.Text.Trim

namespace Switchboard.Text

variable {s e l r : List Char} {es : List (List Char)}

theorem intercalate_cons : s.intercalate (e :: es) = e ++ es.flatMap (s ++ ·) := by
  induction es generalizing e
  case nil => simp
  case cons e' es hi => simp [hi]

theorem intercalate_concat : s.intercalate (es ++ [e]) = es.flatMap (· ++ s) ++ e := by
  induction es
  case nil => simp
  case cons e' es hi =>
    rw [List.cons_append, List.intercalate_cons_of_ne_nil (by simp), hi]
    simp

theorem intercalate_append_cons {as bs : List (List Char)} :
    s.intercalate (as ++ e :: bs) = as.flatMap (· ++ s) ++ (e ++ bs.flatMap (s ++ ·)) := by
  induction as
  case nil => exact intercalate_cons
  case cons a as hi =>
    rw [List.cons_append, List.intercalate_cons_of_ne_nil (by simp), hi]
    simp

theorem infix_intercalate_of_mem (h : e ∈ es) : e <:+: s.intercalate es := by
  have ⟨as, bs, he⟩ := List.append_of_mem h
  rw [he, intercalate_append_cons]
  exact ⟨_, _, List.append_assoc ..⟩

theorem exists_intercalate_eq_append (hl : isAllBlank l) (hn : es ≠ []) :
    ∃ es', es'.map trim = es.map trim ∧ s.intercalate es' = l ++ s.intercalate es := by
  obtain ⟨e, es, rfl⟩ := List.exists_cons_of_ne_nil hn
  have ht : trim (l ++ e ++ []) = trim e := trim_append_append hl isAllBlank_nil
  refine ⟨(l ++ e) :: es, ?_, ?_⟩
  · simpa using ht
  · rw [intercalate_cons, intercalate_cons, List.append_assoc]

theorem exists_append_eq_intercalate (hr : isAllBlank r) (hn : es ≠ []) :
    ∃ es', es'.map trim = es.map trim ∧ s.intercalate es' = s.intercalate es ++ r := by
  obtain ⟨es, e, rfl⟩ := List.eq_nil_or_concat' es |>.resolve_left hn
  have ht : trim ([] ++ e ++ r) = trim e := trim_append_append isAllBlank_nil hr
  refine ⟨es ++ [e ++ r], ?_, ?_⟩
  · simpa using ht
  · rw [intercalate_concat, intercalate_concat, List.append_assoc]

theorem exists_intercalate_eq_append_append (hl : isAllBlank l) (hr : isAllBlank r) (hn : es ≠ []) :
    ∃ es', es'.map trim = es.map trim ∧ s.intercalate es' = l ++ s.intercalate es ++ r := by
  have ⟨fs, hm, hf⟩ := exists_intercalate_eq_append (s := s) hl hn
  have hn : fs ≠ [] := by
    rintro rfl
    simp_all
  have ⟨es', hm', he⟩ := exists_append_eq_intercalate (s := s) hr hn
  exact ⟨es', hm'.trans hm, by rw [he, hf]⟩

theorem exists_intercalate_eq_trimStart (hn : es ≠ []) (h : ∀ e ∈ es, ¬isAllBlank e) :
    ∃ es', es'.map trim = es.map trim ∧ s.intercalate es' = trimStart (s.intercalate es) := by
  obtain ⟨e, es, rfl⟩ := List.exists_cons_of_ne_nil hn
  refine ⟨trimStart e :: es, ?_, ?_⟩
  · rw [List.map_cons, trim_trimStart, List.map_cons]
  · rw [intercalate_cons, intercalate_cons,
      trimStart_append_of_not_isAllBlank (h e List.mem_cons_self)]

theorem exists_intercalate_eq_trimEnd (hn : es ≠ []) (h : ∀ e ∈ es, ¬isAllBlank e) :
    ∃ es', es'.map trim = es.map trim ∧ s.intercalate es' = trimEnd (s.intercalate es) := by
  obtain ⟨es, e, rfl⟩ := List.eq_nil_or_concat' es |>.resolve_left hn
  refine ⟨es ++ [trimEnd e], ?_, ?_⟩
  · simp [trim_trimEnd]
  · rw [intercalate_concat, intercalate_concat,
      trimEnd_append_of_not_isAllBlank (h e (by simp))]

theorem forall_not_isAllBlank_iff : (∀ e ∈ es, ¬isAllBlank e) ↔ [] ∉ es.map trim := by
  simp [trim_eq_nil_iff]

theorem exists_intercalate_eq_trim (hn : es ≠ []) (h : [] ∉ es.map trim) :
    ∃ es', es'.map trim = es.map trim ∧ s.intercalate es' = trim (s.intercalate es) := by
  have ⟨fs, hm, hf⟩ := exists_intercalate_eq_trimStart (s := s) hn (forall_not_isAllBlank_iff.mpr h)
  have hn : fs ≠ [] := by
    rintro rfl
    simp_all
  rw [← hm, ← forall_not_isAllBlank_iff] at h
  have ⟨es', hm', he⟩ := exists_intercalate_eq_trimEnd (s := s) hn h
  exact ⟨es', hm'.trans hm, by rw [he, hf, trim]⟩

theorem trimStart_append_of_eq_self (hl : trimStart l = l) (hr : trimStart r = r) :
    trimStart (l ++ r) = l ++ r := by
  rw [trimStart_eq_self_iff] at *
  cases l
  case nil  => exact hr
  case cons => exact hl

theorem trimEnd_append_eq_self_iff (hn : r ≠ []) : trimEnd (l ++ r) = l ++ r ↔ trimEnd r = r := by
  rw [trimEnd_eq_self_iff, trimEnd_eq_self_iff, List.getLast?_append_of_ne_nil _ hn]

theorem trimStart_intercalate (hs : trimStart s = s) (h : ∀ e ∈ es, trimStart e = e) :
    trimStart (s.intercalate es) = s.intercalate es := by
  induction es
  case nil => rfl
  case cons e es hi =>
    have ⟨he, hes⟩ := List.forall_mem_cons.mp h
    cases es
    case nil          => rwa [List.intercalate_singleton]
    case cons e' es =>
      rw [List.intercalate_cons_cons]
      exact trimStart_append_of_eq_self (trimStart_append_of_eq_self he hs) (hi hes)

theorem intercalate_map_cons {g : List Char → List Char} (hn : es ≠ []) :
    s.intercalate ((e :: es).map g) = g e ++ (s ++ s.intercalate (es.map g)) := by
  have hm : es.map g ≠ [] := fun hm => hn (List.map_eq_nil_iff.mp hm)
  rw [List.map_cons, List.intercalate_cons_of_ne_nil hm, List.append_assoc]

theorem flatMap_concat_append :
    (es ++ [e]).flatMap (· ++ s) = es.flatMap (· ++ s) ++ e ++ s := by
  simp

-- When the last part is emptied, the text ends with the separator as it did before.
theorem trimEnd_intercalate_map {g : List Char → List Char} (hs : s ≠ [])
    (hg : ∀ e ∈ es, trimEnd (g e) = g e ∧ (g e = [] → isAllBlank e))
    (h : trimEnd (s.intercalate es) = s.intercalate es) :
    trimEnd (s.intercalate (es.map g)) = s.intercalate (es.map g) := by
  obtain rfl | ⟨es, e, rfl⟩ := List.eq_nil_or_concat' es
  case inl => rfl
  case inr =>
    have ⟨hge, hb⟩ := hg e (by simp)
    rw [List.map_append, List.map_singleton, intercalate_concat]
    by_cases hn : g e = []
    case neg => exact (trimEnd_append_eq_self_iff hn).mpr hge
    case pos =>
      obtain rfl | ⟨es, e', rfl⟩ := List.eq_nil_or_concat' es
      case inl => rw [hn]; rfl
      case inr =>
        rw [intercalate_concat, trimEnd_append_of_isAllBlank (hb hn)] at h
        have he : e = [] := by
          have hl := length_trimEnd_le ((es ++ [e']).flatMap (· ++ s))
          rw [h, List.length_append] at hl
          exact List.eq_nil_of_length_eq_zero (by omega)
        rw [he, List.append_nil, flatMap_concat_append, trimEnd_append_eq_self_iff hs] at h
        rw [hn, List.append_nil, List.map_append, List.map_singleton, flatMap_concat_append]
        exact (trimEnd_append_eq_self_iff hs).mpr h

end Switchboard.Text
