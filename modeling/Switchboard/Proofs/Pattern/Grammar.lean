import Mathlib.Data.List.Forall2
import Switchboard.Proofs.Gathers
import Switchboard.Proofs.Pattern.Balance
import Switchboard.Proofs.Text.Names
import Switchboard.Proofs.Text.Trim

namespace Switchboard

open Text (isAllBlank isBalanced IsQualified trim)

-- A name among cells has no double colon, because the colon separates cells.
def Bracket.Allows (b : Bracket) (cs : List Char) : Prop :=
  b = round → IsQualified (trim cs) → ¬[':', ':'] <:+: trim cs

inductive Padded (R : List Char → Pattern → Prop) : List Char → Pattern → Prop
  | intro {l cs r p} : isAllBlank l → isAllBlank r → R cs p → Padded R (l ++ cs ++ r) p

inductive Derives : List Char → Pattern → Prop
  | wildcard : Derives ['_'] .wildcard
  | literal {cs} : '"' ∉ cs → Derives ('"' :: cs ++ ['"']) (.literal (.ofText (String.ofList cs)))
  | name {cs} : IsQualified cs → cs ≠ ['_'] → Derives cs (.name (String.ofList cs))
  | blank {b cs} : isAllBlank cs → Derives (b.opening :: cs ++ [b.closing]) (.ofBracket b [])
  | bracketed {b es ps} :
    es ≠ [] → List.Forall₂ (Padded Derives) es ps → (∀ e ∈ es, b.Allows e) →
    Derives (b.opening :: b.separator.intercalate es ++ [b.closing]) (.ofBracket b ps)

variable {R S : List Char → Pattern → Prop} {b : Bracket} {cs : List Char} {p : Pattern}
  {es : List (List Char)} {ps : List Pattern}

namespace Derives

theorem induction {motive : List Char → Pattern → Prop}
    (wildcard : motive ['_'] .wildcard)
    (literal : ∀ {cs}, '"' ∉ cs →
      motive ('"' :: cs ++ ['"']) (.literal (.ofText (String.ofList cs))))
    (name : ∀ {cs}, IsQualified cs → cs ≠ ['_'] → motive cs (.name (String.ofList cs)))
    (blank : ∀ {b cs}, isAllBlank cs →
      motive (b.opening :: cs ++ [b.closing]) (.ofBracket b []))
    (bracketed : ∀ {b es ps}, es ≠ [] →
      List.Forall₂ (Padded fun cs p => Derives cs p ∧ motive cs p) es ps → (∀ e ∈ es, b.Allows e) →
      motive (b.opening :: b.separator.intercalate es ++ [b.closing]) (.ofBracket b ps))
    (h : Derives cs p) : motive cs p := by
  refine @Derives.rec (fun cs p _ => motive cs p)
    (fun es ps _ => List.Forall₂ (Padded fun cs p => Derives cs p ∧ motive cs p) es ps)
    (fun e p _ => Padded (fun cs p => Derives cs p ∧ motive cs p) e p)
    wildcard literal name blank ?_ .nil ?_ ?_ _ _ h
  · exact fun hn _ ha hi => bracketed hn hi ha
  · exact fun _ _ hi hi' => .cons hi hi'
  · exact fun hl hr h hi => .intro hl hr ⟨h, hi⟩

end Derives

theorem Bracket.Allows.of_trim_eq {ds : List Char} (h : trim cs = trim ds) (ha : b.Allows cs) :
    b.Allows ds := by
  rwa [Allows, ← h]

theorem Bracket.not_isBlank_opening : ¬Text.isBlank b.opening := by
  cases b <;> decide

theorem Bracket.not_isBlank_closing : ¬Text.isBlank b.closing := by
  cases b <;> decide

theorem Text.IsQualified.trim_eq (h : IsQualified cs) : trim cs = cs := by
  refine trim_eq_self_iff.mpr ⟨fun c hc => ?_, fun c hc => ?_⟩
  · exact h.not_isBlank (List.mem_of_mem_head? hc)
  · exact h.not_isBlank (List.mem_of_mem_getLast? hc)

theorem Text.IsQualified.isPlain (h : IsQualified cs) : ∀ c ∈ cs, Nesting.IsPlain c := by
  intro c hc
  constructor
  case left =>
    rintro rfl
    exact absurd (h.isNamePart_or_colon _ hc) (by decide)
  case right =>
    intro hb
    simp only [isBracket, Bool.or_eq_true, decide_eq_true_eq] at hb
    rcases hb with ((rfl | rfl) | rfl) | rfl <;>
      exact absurd (h.isNamePart_or_colon _ hc) (by decide)

namespace Derives

theorem ne_nil (h : Derives cs p) : cs ≠ [] := by
  cases h
  case name h _ => exact h.ne_nil
  all_goals simp

theorem trim_eq (h : Derives cs p) : trim cs = cs := by
  cases h
  case wildcard => decide
  case literal  => exact Text.trim_cons_append_singleton (by decide) (by decide)
  case name h _ => exact h.trim_eq
  all_goals
    exact Text.trim_cons_append_singleton Bracket.not_isBlank_opening Bracket.not_isBlank_closing

end Derives

namespace Padded

theorem of_trim (h : R (trim cs) p) : Padded R cs p := by
  have ⟨l, r, hl, hr, hc⟩ := Text.exists_eq_append_trim_append cs
  rw [hc]
  exact .intro hl hr h

theorem mono (h : Padded R cs p) (hr : ∀ {cs p}, R cs p → S cs p) : Padded S cs p := by
  obtain ⟨hl, hb, h⟩ := h
  exact .intro hl hb (hr h)

theorem rel_trim (h : Padded R cs p) (hr : ∀ {cs p}, R cs p → trim cs = cs) : R (trim cs) p := by
  obtain ⟨hl, hb, h⟩ := h
  rwa [Text.trim_append_append hl hb, hr h]

end Padded

theorem Padded.isBalanced (h : Padded R cs p) (hr : ∀ {cs p}, R cs p → isBalanced false [] cs) :
    isBalanced false [] cs := by
  obtain ⟨hl, hb, h⟩ := h
  have hc := Text.isBalanced_append_of_isBalanced (Text.isBalanced_of_isAllBlank hl) (hr h)
  exact Text.isBalanced_append_of_isBalanced hc (Text.isBalanced_of_isAllBlank hb)

namespace Derives

theorem isBalanced (h : Derives cs p) : isBalanced false [] cs := by
  apply h.induction
  case wildcard  => rfl
  case literal   => exact Text.isBalanced_quoted
  case name      => exact fun h _ => Text.isBalanced_of_forall_isPlain h.isPlain
  case blank     => exact fun h => Text.isBalanced_bracketed _ (Text.isBalanced_of_isAllBlank h)
  case bracketed =>
    intro b es ps _ hp _
    refine Text.isBalanced_bracketed b (Text.isBalanced_intercalate ?_)
    exact forall_mem_of_forall₂ hp fun h => h.isBalanced And.right

theorem isSealed (h : Derives cs p) (ha : b.Allows cs) : b.IsSealed .start cs := by
  cases h
  case wildcard =>
    refine Bracket.isSealed_of_forall_isPlain ?_
    cases b <;> simp [Nesting.IsPlain, Text.isBracket, Bracket.separator]
  case literal cs h =>
    refine ⟨fun _ => by cases b <;> simp [Bracket.separator], ?_⟩
    let n : Nesting Int := ⟨true, 0⟩
    have hr : n.run cs = n := Nesting.run_of_not_mem_quote h
    have hc : b.IsSealed n ['"'] := ⟨by simp [n, Nesting.isTop], trivial⟩
    exact Bracket.isSealed_append.mpr ⟨Bracket.isSealed_quoted h, hr ▸ hc⟩
  case name h _ =>
    refine Bracket.isSealed_of_forall_isPlain fun c hc => ⟨h.isPlain c hc, fun hs => ?_⟩
    cases b <;> cases hs
    case square.refl => exact absurd (h.isNamePart_or_colon _ hc) (by decide)
    case round.refl  =>
      rw [Bracket.Allows, h.trim_eq] at ha
      exact ha rfl h (h.colons_infix hc)
  case blank h => exact Bracket.isSealed_bracketed (Text.isBalanced_of_isAllBlank h)
  case bracketed hp _ =>
    refine Bracket.isSealed_bracketed (Text.isBalanced_intercalate ?_)
    exact forall_mem_of_forall₂ hp fun h => h.isBalanced isBalanced

end Derives

-- Elements are pieces: nothing in them is cut, and each of them ends at the top.
theorem Padded.isUncut (h : Padded Derives cs p) (ha : b.Allows cs) : b.IsUncut .start cs := by
  obtain @⟨l, cs, r, p, hl, hr, h⟩ := h
  have hc := h.isSealed (ha.of_trim_eq (Text.trim_append_append hl hr))
  refine Bracket.IsSealed.isUncut ?_
  rw [Bracket.isSealed_append, Bracket.isSealed_append, Nesting.run_of_isAllBlank hl]
  exact ⟨⟨Bracket.isSealed_of_isAllBlank hl, hc⟩, Bracket.isSealed_of_isAllBlank hr⟩

theorem Padded.isTop (h : Padded Derives cs p) : (Nesting.start.run cs).isTop := by
  have hr : Nesting.start.run cs = .start :=
    Text.run_of_isBalanced_nil (h.isBalanced Derives.isBalanced)
  rw [hr]
  exact Nesting.isTop_outset

end Switchboard
