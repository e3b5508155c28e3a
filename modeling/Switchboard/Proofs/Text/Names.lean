import Switchboard.Text.Blank
import Switchboard.Text.Name

namespace Switchboard.Text

inductive IsWord : List Char → Prop
  | intro {c cs} : isNameStart c → (∀ d ∈ cs, isNamePart d) → IsWord (c :: cs)

inductive IsQualified : List Char → Prop
  | word {w}        : IsWord w → IsQualified w
  | qualified {w cs} : IsWord w → IsQualified cs → IsQualified (w ++ ':' :: ':' :: cs)

variable {c : Char} {cs w : List Char}

theorem isNamePart_of_isNameStart (h : isNameStart c) : isNamePart c := by
  simp only [isNameStart, isNamePart, Char.isAlphanum, Bool.or_eq_true] at *
  exact h.imp_left .inl

theorem IsWord.forall_isNamePart : IsWord w → ∀ c ∈ w, isNamePart c
  | .intro hc hs => by simpa [isNamePart_of_isNameStart hc] using hs

theorem IsWord.append_singleton : IsWord w → isNamePart c → IsWord (w ++ [c])
  | .intro hw hs, hc => .intro hw (by simpa [or_imp, forall_and, hc] using hs)

theorem not_isNamePart_colon : ¬isNamePart ':' := by
  decide

theorem isNameRest_cons (h : isNamePart c) : isNameRest (c :: cs) = isNameRest cs := by
  rw [isNameRest, h, Bool.true_and]
  rintro _ rfl
  exact absurd h not_isNamePart_colon

theorem isNameRest_append (h : ∀ c ∈ w, isNamePart c) : isNameRest (w ++ cs) = isNameRest cs := by
  induction w
  case nil => rfl
  case cons c w hi =>
    rw [List.cons_append, isNameRest_cons (h c List.mem_cons_self)]
    exact hi fun c hc => h c (List.mem_cons_of_mem _ hc)

theorem IsWord.isName_append : IsWord w → isName (w ++ cs) = isNameRest cs
  | .intro hc hs => by simp [isName, hc, isNameRest_append hs]

mutual

theorem isQualified_of_isName {cs : List Char} (h : isName cs) : IsQualified cs := by
  match cs with
  | []      => simp [isName] at h
  | c :: cs =>
    simp only [isName, Bool.and_eq_true] at h
    have hw : IsWord [c] := .intro h.left (by simp)
    exact isQualified_append hw h.right

theorem isQualified_append {w cs : List Char} (hw : IsWord w) (h : isNameRest cs) :
    IsQualified (w ++ cs) := by
  match cs with
  | []      => simpa using IsQualified.word hw
  | c :: cs =>
    by_cases hc : isNamePart c
    case pos =>
      rw [isNameRest_cons hc] at h
      simpa using isQualified_append (hw.append_singleton hc) h
    case neg =>
      unfold isNameRest at h
      split at h
      case h_1 => contradiction
      case h_2 =>
        cases ‹_ :: _ = _›
        exact .qualified hw (isQualified_of_isName h)
      case h_3 => simp_all

end

theorem isName_of_isQualified (h : IsQualified cs) : isName cs := by
  induction h
  case word w hw => rw [← List.append_nil w, hw.isName_append, isNameRest]
  case qualified hw _ hi => rwa [hw.isName_append, isNameRest]

theorem isName_iff : isName cs ↔ IsQualified cs :=
  ⟨isQualified_of_isName, isName_of_isQualified⟩

theorem IsQualified.isNamePart_or_colon (h : IsQualified cs) :
    ∀ c ∈ cs, isNamePart c ∨ c = ':' := by
  induction h
  case word hw => exact fun c hc => .inl (hw.forall_isNamePart c hc)
  case qualified hw _ hi =>
    intro c hc
    simp only [List.mem_append, List.mem_cons] at hc
    rcases hc with hc | hc | hc | hc
    · exact .inl (hw.forall_isNamePart c hc)
    · exact .inr hc
    · exact .inr hc
    · exact hi c hc

theorem IsQualified.ne_nil (h : IsQualified cs) : cs ≠ [] := by
  rintro rfl
  simp [← isName_iff, isName] at h

theorem IsQualified.colons_infix (h : IsQualified cs) (hc : ':' ∈ cs) : [':', ':'] <:+: cs := by
  cases h
  case word hw             => exact absurd (hw.forall_isNamePart _ hc) not_isNamePart_colon
  case qualified w ds _ _ => exact ⟨w, ds, by simp⟩

theorem toNat_of_isNamePart (h : isNamePart c) : 0x30 ≤ c.toNat ∧ c.toNat ≤ 0x7A := by
  delta isNamePart Char.isAlphanum Char.isAlpha Char.isUpper Char.isLower Char.isDigit at h
  simp only [Bool.or_eq_true, Bool.and_eq_true, decide_eq_true_eq, UInt32.le_iff_toNat_le,
    ge_iff_le] at h
  change (((0x41 ≤ c.toNat ∧ c.toNat ≤ 0x5A) ∨ (0x61 ≤ c.toNat ∧ c.toNat ≤ 0x7A)) ∨
    (0x30 ≤ c.toNat ∧ c.toNat ≤ 0x39)) ∨ c = '_' at h
  rcases h with h | rfl
  · omega
  · decide

theorem IsQualified.not_isBlank (h : IsQualified cs) (hc : c ∈ cs) : ¬isBlank c := by
  have hn : 0x30 ≤ c.toNat ∧ c.toNat ≤ 0x7A := by
    rcases h.isNamePart_or_colon c hc with hc | rfl
    · exact toNat_of_isNamePart hc
    · decide
  simp [isBlank]
  omega

end Switchboard.Text
