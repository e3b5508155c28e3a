import Mathlib.Data.List.Basic
import Switchboard.Pattern.Parse
import Switchboard.Proofs.Text.Trim

namespace Switchboard

open Text (trim)

variable {b : Bracket} {c d : Char} {cs ds : List Char}

theorem between?_eq_some_iff : between? c d cs = some ds ↔ cs = c :: ds ++ [d] := by
  cases cs
  case nil => simp [between?]
  case cons c' cs =>
    rw [between?]
    split
    case isTrue h =>
      obtain ⟨rfl, h⟩ := h
      obtain ⟨cs, rfl⟩ := List.getLast?_eq_some_iff.mp h
      simp
    case isFalse h =>
      simp only [reduceCtorEq, false_iff]
      rintro h'
      simp_all

theorem between?_eq_none (h : cs.head? ≠ some c) : between? c d cs = none := by
  refine Option.eq_none_iff_forall_ne_some.mpr fun ds hd => h ?_
  simp [between?_eq_some_iff.mp hd]

namespace Outline

theorem ofTrimmed_eq_wildcard_iff : ofTrimmed cs = .wildcard ↔ cs = ['_'] := by
  unfold ofTrimmed ofTrimmedIn
  split
  case isTrue h  => simp [h]
  case isFalse h =>
    repeat' split
    all_goals simp [h]

theorem ofTrimmed_quoted : ofTrimmed ('"' :: cs ++ ['"']) = .quoted cs := by
  simp [ofTrimmedIn, between?_eq_some_iff.mpr]

theorem ofTrimmed_bracketed :
    ofTrimmed (b.opening :: cs ++ [b.closing]) = .bracketed b (b.elements (trim cs)) := by
  cases b
  case square =>
    have hq : between? '"' '"' ('[' :: cs ++ [']']) = none := between?_eq_none (by simp)
    have hs : between? '[' ']' ('[' :: cs ++ [']']) = some cs := between?_eq_some_iff.mpr rfl
    simp_all [ofTrimmedIn, Bracket.elements, Bracket.opening, Bracket.closing]
  case round =>
    have hq : between? '"' '"' ('(' :: cs ++ [')']) = none := between?_eq_none (by simp)
    have hs : between? '[' ']' ('(' :: cs ++ [')']) = none := between?_eq_none (by simp)
    have hr : between? '(' ')' ('(' :: cs ++ [')']) = some cs := between?_eq_some_iff.mpr rfl
    simp_all [ofTrimmedIn, Bracket.elements, Bracket.opening, Bracket.closing]

theorem ofTrimmed_bare (hn : cs ≠ ['_']) (hq : cs.head? ≠ some '"')
    (hb : ∀ b : Bracket, cs.head? ≠ some b.opening) : ofTrimmed cs = .bare cs := by
  have hs := between?_eq_none (d := ']') (hb .square)
  have hr := between?_eq_none (d := ')') (hb .round)
  simp only [Bracket.opening] at hs hr
  simp [ofTrimmedIn, hn, between?_eq_none hq, hs, hr]

end Outline

namespace Pattern

theorem ofCharsIn_eq {δ : Type} [OfNat δ 0] [OfNat δ 1] [Add δ] [Sub δ] [DecidableEq δ]
    (cs : List Char) :
    ofCharsIn δ cs =
      match Outline.ofTrimmedIn δ (trim cs) with
      | .wildcard       => wildcard
      | .quoted ds      => literal (.ofText (String.ofList ds))
      | .bracketed b es => ofBracket b (es.map (ofCharsIn δ))
      | .bare ds        => name (String.ofList ds) := by
  rw [ofCharsIn]
  simp only [Outline.ofCharsIn]
  split <;> simp_all

theorem ofChars_eq (cs : List Char) :
    ofChars cs =
      match Outline.ofTrimmed (trim cs) with
      | .wildcard       => wildcard
      | .quoted ds      => literal (.ofText (String.ofList ds))
      | .bracketed b es => ofBracket b (es.map ofChars)
      | .bare ds        => name (String.ofList ds) :=
  ofCharsIn_eq cs

theorem ofChars_trim : ofChars (trim cs) = ofChars cs := by
  rw [ofChars_eq, Text.trim_trim, ← ofChars_eq]

theorem isWildcard_ofBracket {ps : List Pattern} : (ofBracket b ps).isWildcard = false := by
  cases b <;> rfl

theorem isWildcard_ofChars : (ofChars cs).isWildcard ↔ trim cs = ['_'] := by
  rw [ofChars_eq, ← Outline.ofTrimmed_eq_wildcard_iff]
  split
  case h_3 => simp_all [isWildcard_ofBracket]
  all_goals simp_all [isWildcard]

end Pattern

end Switchboard
