import Switchboard.Pattern.Form
import Switchboard.Proofs.Pattern.StrictReading
import Switchboard.Proofs.Pattern.Tidying

namespace Switchboard

open Text (trim)

variable {b : Bracket} {cs ds : List Char}

theorem Outline.ofTrimmed_spec (cs : List Char) :
    match ofTrimmed cs with
    | .wildcard       => cs = ['_']
    | .quoted ds      => cs = '"' :: ds ++ ['"']
    | .bracketed b es => ∃ ds, cs = b.opening :: ds ++ [b.closing] ∧ es = b.elements (trim ds)
    | .bare ds        => cs = ds := by
  generalize ho : ofTrimmed cs = o
  unfold ofTrimmed ofTrimmedIn at ho
  split at ho
  case isTrue h => exact ho ▸ h
  case isFalse =>
  split at ho
  case h_1 h => exact ho ▸ between?_eq_some_iff.mp h
  case h_2 =>
  split at ho
  case h_1 h => exact ho ▸ ⟨_, between?_eq_some_iff.mp h, rfl⟩
  case h_2 =>
  split at ho
  case h_1 h => exact ho ▸ ⟨_, between?_eq_some_iff.mp h, rfl⟩
  case h_2 => exact ho ▸ rfl

namespace Pattern

def tidied (cs : List Char) : List Char :=
  (ofChars cs).source.toList

theorem sourceAll_eq_map (ps : List Pattern) : sourceAll ps = ps.map source := by
  induction ps
  case nil => rfl
  case cons p ps hi => rw [sourceAll, hi, List.map_cons]

theorem toList_source_ofBracket (ps : List Pattern) :
    (ofBracket b ps).source.toList =
      b.opening :: b.separator.intercalate (ps.map (·.source.toList)) ++ [b.closing] := by
  cases b <;> simp [ofBracket, source, sourceAll_eq_map, String.toList_intercalate, Bracket.opening,
    Bracket.closing, Bracket.separator, Function.comp_def]

theorem tidied_of_not_bracketed (h : ∀ b ds, trim cs ≠ Bracket.opening b :: ds ++ [b.closing]) :
    tidied cs = trim cs := by
  have hs := Outline.ofTrimmed_spec (trim cs)
  rw [tidied, ofChars_eq]
  split <;> simp_all [source, Literal.ofText]

theorem ofChars_of_trim_eq (h : trim cs = b.opening :: ds ++ [b.closing]) :
    ofChars cs = ofBracket b ((b.elements (trim ds)).map ofChars) := by
  rw [← ofChars_trim, h, ofChars_bracketed]

theorem tidied_of_trim_eq (h : trim cs = b.opening :: ds ++ [b.closing]) :
    tidied cs =
      b.opening :: b.separator.intercalate ((b.elements (trim ds)).map tidied) ++ [b.closing] := by
  rw [tidied, ofChars_of_trim_eq h, toList_source_ofBracket, List.map_map]
  rfl

-- A text is read by its elements if it stands between brackets, and as a whole if it does not. The
-- elements are shorter than the text.
theorem induction_ofChars {motive : List Char → Prop}
    (whole : ∀ {cs}, (∀ b ds, trim cs ≠ Bracket.opening b :: ds ++ [b.closing]) → motive cs)
    (bracketed : ∀ {b cs ds}, trim cs = Bracket.opening b :: ds ++ [b.closing] →
      (∀ e ∈ b.elements (trim ds), motive e) → motive cs)
    (cs : List Char) : motive cs := by
  induction hn : cs.length using Nat.strong_induction_on generalizing cs
  case h n hi =>
  subst hn
  by_cases h : ∃ b ds, trim cs = Bracket.opening b :: ds ++ [b.closing]
  case pos =>
    obtain ⟨b, ds, h⟩ := h
    refine bracketed h fun e he => hi _ ?_ e rfl
    have hl := congrArg List.length h
    have he := Bracket.length_le_of_mem_elements he
    have hd := Text.length_trim_le ds
    have hc := Text.length_trim_le cs
    simp only [List.length_append, List.length_cons, List.length_nil] at hl
    omega
  case neg => exact whole fun b ds hc => h ⟨b, ds, hc⟩

theorem tidies_tidied (cs : List Char) : Tidies cs (tidied cs) := by
  induction cs using induction_ofChars
  case whole cs h =>
    rw [tidied_of_not_bracketed h]
    exact tidies_trim
  case bracketed h hi =>
    rw [tidied_of_trim_eq h]
    exact tidies_bracketed h hi

-- The tidied elements are cut where the elements were, and by induction each is read as before.
theorem ofChars_tidied (cs : List Char) : ofChars (tidied cs) = ofChars cs := by
  induction cs using induction_ofChars
  case whole cs h => rw [tidied_of_not_bracketed h, ofChars_trim]
  case bracketed b cs ds h hi =>
    have ht : trim (trim ds) = trim ds := Text.trim_trim
    have he := Bracket.elements_intercalate_elements (b := b) (fun e _ => tidies_tidied e) ht
    rw [tidied_of_trim_eq h, ofChars_bracketed, he, List.map_map, ofChars_of_trim_eq h]
    exact congrArg (ofBracket b) (List.map_congr_left hi)

theorem ofString_source (s : String) : ofString (ofString s).source = ofString s :=
  ofChars_tidied s.toList

end Pattern

end Switchboard
