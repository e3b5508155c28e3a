import Switchboard.Pattern.Form
import Switchboard.Pattern.Parse
import Switchboard.Proofs.Json.Quoted
import Switchboard.Proofs.Text.Joined

namespace Switchboard

open Json

namespace Json

variable {k m : String} {x : Json} {xs : List Json} {us vs : List Char}

def heading (k : String) : List Char :=
  quote k.toList ++ [':']

theorem heading_append_inj (h : heading k ++ us = heading m ++ vs) : k = m ∧ us = vs := by
  simp only [heading, List.append_assoc] at h
  have ⟨hk, hu⟩ := quote_append_inj h
  exact ⟨String.toList_inj.mp hk, (List.cons.inj hu).right⟩

theorem chars_object_pair {y : Json} : (object [(k, x), (m, y)]).chars ++ us =
    '{' :: (heading k ++ (x.chars ++ ',' :: (heading m ++ (y.chars ++ '}' :: us)))) := by
  simp [chars, memberChars, heading]

theorem chars_text_append_inj (h : (text k).chars ++ us = (text m).chars ++ vs) :
    k = m ∧ us = vs := by
  have ⟨hk, hu⟩ := quote_append_inj h
  exact ⟨String.toList_inj.mp hk, hu⟩

theorem cons_intercalate_items : ',' :: List.intercalate [','] (itemChars (x :: xs)) =
    (itemChars (x :: xs)).flatMap (',' :: ·) := by
  simp [itemChars, Text.intercalate_cons]

end Json

namespace Literal

variable {l k : Literal} {us vs : List Char}

theorem chars_toJson_append_inj (h : l.toJson.chars ++ us = k.toJson.chars ++ vs) :
    l = k ∧ us = vs := by
  have ht := h
  rw [toJson, toJson, chars_object_pair, chars_object_pair] at ht
  have hs := (heading_append_inj (List.cons.inj ht).right).right
  have hlk : l = k := ext_source (chars_text_append_inj hs).left
  subst hlk
  exact ⟨rfl, List.append_cancel_left h⟩

end Literal

namespace Pattern

variable {k m : String} {x y : Json} {us vs : List Char} {ps qs : List Pattern}

theorem form_append_inj (h : (form k x).chars ++ us = (form m y).chars ++ vs) :
    k = m ∧ x.chars ++ '}' :: us = y.chars ++ '}' :: vs := by
  rw [form, form, chars_object_pair, chars_object_pair] at h
  have hk := (heading_append_inj (List.cons.inj h).right).right
  have ⟨hm, hv⟩ := chars_text_append_inj hk
  exact ⟨hm, (heading_append_inj (List.cons.inj hv).right).right⟩

theorem wildcard_append_ne : wildcard.toJson.chars ++ us ≠ (form m y).chars ++ vs := by
  intro h
  have hw : wildcard.toJson.chars ++ us =
      '{' :: (heading "kind" ++ ((text "wildcard").chars ++ '}' :: us)) := by
    simp [toJson, chars, memberChars, heading]
  rw [hw, form, chars_object_pair] at h
  have hk := (heading_append_inj (List.cons.inj h).right).right
  have hc := (List.cons.inj (chars_text_append_inj hk).right).left
  exact absurd hc (by decide)

theorem chars_toJson_eq_cons (p : Pattern) : ∃ cs, p.toJson.chars = '{' :: cs := by
  cases p
  all_goals exact ⟨_, rfl⟩

-- No item begins with a closing bracket, so that the empty list is told from the others. There
-- every item may then stand behind a comma.
theorem items_of_array
    (h : (array (toJsonAll ps)).chars ++ us = (array (toJsonAll qs)).chars ++ vs) :
    (itemChars (toJsonAll ps)).flatMap (',' :: ·) ++ ']' :: us =
      (itemChars (toJsonAll qs)).flatMap (',' :: ·) ++ ']' :: vs := by
  simp only [chars, List.cons_append, List.cons.injEq, true_and, List.append_assoc,
    List.nil_append] at h
  cases ps <;> cases qs
  case nil.nil => exact h
  case nil.cons q qs =>
    obtain ⟨cs, hq⟩ := chars_toJson_eq_cons q
    simp [toJsonAll, itemChars, Text.intercalate_cons, hq] at h
  case cons.nil p ps =>
    obtain ⟨cs, hp⟩ := chars_toJson_eq_cons p
    simp [toJsonAll, itemChars, Text.intercalate_cons, hp] at h
  case cons.cons p ps q qs =>
    simp only [toJsonAll, ← cons_intercalate_items, List.cons_append]
    exact congrArg (',' :: ·) h

mutual

theorem chars_toJson_append_inj : ∀ (p q : Pattern) {us vs : List Char},
    p.toJson.chars ++ us = q.toJson.chars ++ vs → p = q ∧ us = vs
  | wildcard, q, us, vs, h => by
    cases q
    case wildcard => exact ⟨rfl, List.append_cancel_left h⟩
    all_goals exact absurd h wildcard_append_ne
  | literal l, q, us, vs, h => by
    cases q
    case wildcard => exact absurd h.symm wildcard_append_ne
    case literal k =>
      have ⟨hl, hu⟩ := Literal.chars_toJson_append_inj (form_append_inj h).right
      exact ⟨congrArg literal hl, (List.cons.inj hu).right⟩
    all_goals exact absurd (form_append_inj h).left (by decide)
  | name n, q, us, vs, h => by
    cases q
    case wildcard => exact absurd h.symm wildcard_append_ne
    case name m =>
      have ⟨hn, hu⟩ := chars_text_append_inj (form_append_inj h).right
      exact ⟨congrArg name hn, (List.cons.inj hu).right⟩
    all_goals exact absurd (form_append_inj h).left (by decide)
  | list ps, q, us, vs, h => by
    cases q
    case wildcard => exact absurd h.symm wildcard_append_ne
    case list qs =>
      have ⟨hs, hu⟩ := chars_items_append_inj ps qs (items_of_array (form_append_inj h).right)
      exact ⟨congrArg list hs, (List.cons.inj hu).right⟩
    all_goals exact absurd (form_append_inj h).left (by decide)
  | cells ps, q, us, vs, h => by
    cases q
    case wildcard => exact absurd h.symm wildcard_append_ne
    case cells qs =>
      have ⟨hs, hu⟩ := chars_items_append_inj ps qs (items_of_array (form_append_inj h).right)
      exact ⟨congrArg cells hs, (List.cons.inj hu).right⟩
    all_goals exact absurd (form_append_inj h).left (by decide)

theorem chars_items_append_inj : ∀ (ps qs : List Pattern) {us vs : List Char},
    (itemChars (toJsonAll ps)).flatMap (',' :: ·) ++ ']' :: us =
      (itemChars (toJsonAll qs)).flatMap (',' :: ·) ++ ']' :: vs → ps = qs ∧ us = vs
  | [], [], us, vs, h => ⟨rfl, (List.cons.inj h).right⟩
  | [], q :: qs, us, vs, h => absurd (List.cons.inj h).left (by decide)
  | p :: ps, [], us, vs, h => absurd (List.cons.inj h).left (by decide)
  | p :: ps, q :: qs, us, vs, h => by
    simp only [toJsonAll, itemChars, List.flatMap_cons, List.append_assoc, List.cons_append] at h
    have ⟨hp, hr⟩ := chars_toJson_append_inj p q (List.cons.inj h).right
    have ⟨hs, hu⟩ := chars_items_append_inj ps qs hr
    exact ⟨by rw [hp, hs], hu⟩

end

theorem compact_ofString_eq_iff (s t : String) :
    (ofString s).toJson.compact = (ofString t).toJson.compact ↔ ofString s = ofString t := by
  constructor
  case mp =>
    intro h
    have hc : (ofString s).toJson.chars = (ofString t).toJson.chars := String.ofList_inj.mp h
    exact (chars_toJson_append_inj _ _ (congrArg (· ++ []) hc)).left
  case mpr => exact congrArg fun p : Pattern => p.toJson.compact

end Pattern

end Switchboard
