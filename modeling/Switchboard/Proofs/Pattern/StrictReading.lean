import Switchboard.Pattern.Strict
import Switchboard.Proofs.Pattern.Grammar
import Switchboard.Proofs.Pattern.Reading
import Switchboard.Proofs.Text.Joined

namespace Switchboard

open Text (isAllBlank isBalanced IsQualified trim)

variable {δ : Type} [OfNat δ 0] [OfNat δ 1] [Add δ] [Sub δ] [DecidableEq δ]
variable {b : Bracket} {c : Char} {cs ds e : List Char} {p q : Pattern} {es fs : List (List Char)}

namespace Bracket

theorem ofOpening?_eq_some_iff : ofOpening? c = some b ↔ c = b.opening := by
  constructor
  case mp =>
    unfold ofOpening?
    split
    case isTrue h =>
      rintro ⟨⟩
      exact h
    case isFalse =>
      split <;> rintro ⟨⟩
      assumption
  case mpr =>
    rintro rfl
    cases b <;> rfl

theorem enclosed?_eq_some_iff :
    b.enclosed? (b.opening :: cs) = some es ↔
      isBalanced false [] (b.opening :: cs) ∧
        ∃ ds, cs = ds ++ [b.closing] ∧ es = b.elements (trim ds) := by
  have hl : (b.opening :: cs).getLast? = some b.closing ↔ ∃ ds, cs = ds ++ [b.closing] := by
    cases cs
    case nil          => cases b <;> simp [opening, closing]
    case cons c cs => rw [List.getLast?_cons_cons, List.getLast?_eq_some_iff]
  unfold enclosed? enclosedIn? elements
  split
  case isTrue h =>
    simp only [Bool.and_eq_true, decide_eq_true_eq, hl] at h
    obtain ⟨hb, ds, rfl⟩ := h
    simp [hb, eq_comm]
  case isFalse h =>
    simp only [Bool.and_eq_true, decide_eq_true_eq, hl, not_and] at h
    simp only [reduceCtorEq, false_iff, not_and]
    rintro hb ⟨ds, hd, _⟩
    exact h hb ⟨ds, hd⟩

-- The elements that are cut out of the text between the brackets are those that it was put together
-- from, but for the blanks around them.
theorem map_trim_elements {ps : List Pattern} (hn : es ≠ [])
    (hp : List.Forall₂ (Padded Derives) es ps) (ha : ∀ e ∈ es, b.Allows e) :
    (b.elements (trim (b.separator.intercalate es))).map trim = es.map trim := by
  have hd : ∀ e ∈ es, ∃ p, Derives (trim e) p :=
    forall_mem_of_forall₂ hp fun h => ⟨_, h.rel_trim Derives.trim_eq⟩
  have hb : [] ∉ es.map trim := by
    intro hm
    obtain ⟨e, he, ht⟩ := List.mem_map.mp hm
    obtain ⟨p, h⟩ := hd e he
    exact h.ne_nil ht
  obtain ⟨fs, hm, hj⟩ := Text.exists_intercalate_eq_trim (s := b.separator) hn hb
  have hc : b.AreCut .start fs := by
    refine areCut_of_forall (by rintro rfl; simp_all) fun f hf => ?_
    obtain ⟨e, he, ht⟩ := List.mem_map.mp (hm ▸ List.mem_map_of_mem hf)
    obtain ⟨p, h⟩ := hd e he
    have hp : Padded Derives f p := .of_trim (ht ▸ h)
    exact ⟨hp.isUncut ((ha e he).of_trim_eq ht), hp.isTop⟩
  have hf : [] ∉ fs := fun h => hb (hm ▸ List.mem_map_of_mem h)
  rw [← hj, elements_intercalate hc hf, hm]

-- A colon inside of a name among cells is a separator, so that the name would have been cut there.
theorem allows_of_isUncut (h : b.IsUncut .start e) : b.Allows e := by
  rintro rfl hq ⟨x, y, hx⟩
  have ⟨l, r, hl, _, he⟩ := Text.exists_eq_append_trim_append e
  have hp : ∀ c ∈ x, Nesting.IsPlain c := fun c hc => hq.isPlain c (by simp [← hx, hc])
  refine h (l ++ x) (':' :: ':' :: (y ++ r)) ?_ ?_ ?_
  · rw [he, ← hx]
    simp
  · rw [Nesting.run_append, Nesting.run_of_isAllBlank hl, Nesting.run_of_forall_isPlain hp]
    exact Nesting.isTop_outset
  · simp [separator]

end Bracket

namespace Pattern

theorem flaw?_nil : flaw? [] = some .empty := by
  rw [flaw?, flawIn?]

theorem flawIn?_cons (c : Char) (cs : List Char) :
    flawIn? δ (c :: cs) =
      if c :: cs = ['_'] then none
      else if c = '"' then quotedFlaw? (c :: cs)
      else
        match Bracket.ofOpening? c with
        | none   => bareFlaw? (c :: cs)
        | some b =>
          match b.enclosedIn? δ (c :: cs) with
          | none    => some (.unbalancedBrackets (String.ofList (c :: cs)))
          | some es =>
            es.findSome? fun e =>
              if (trim e).isEmpty then some (.emptyElement (String.ofList (c :: cs)))
              else flawIn? δ (trim e) := by
  rw [flawIn?]
  by_cases hw : c :: cs = ['_']
  case pos => rw [if_pos hw, if_pos hw]
  case neg =>
  by_cases hq : c = '"'
  case pos => rw [if_neg hw, if_neg hw, if_pos hq, if_pos hq]
  case neg =>
  rw [if_neg hw, if_neg hw, if_neg hq, if_neg hq]
  cases Bracket.ofOpening? c
  case none   => rfl
  case some b =>
    dsimp only
    split
    case h_1 he    => simp only [he]
    case h_2 es he =>
      simp only [he]
      conv_rhs => rw [← List.attach_map_subtype_val es, List.findSome?_map]
      rfl

theorem flaw?_cons (c : Char) (cs : List Char) :
    flaw? (c :: cs) =
      if c :: cs = ['_'] then none
      else if c = '"' then quotedFlaw? (c :: cs)
      else
        match Bracket.ofOpening? c with
        | none   => bareFlaw? (c :: cs)
        | some b =>
          match b.enclosed? (c :: cs) with
          | none    => some (.unbalancedBrackets (String.ofList (c :: cs)))
          | some es =>
            es.findSome? fun e =>
              if (trim e).isEmpty then some (.emptyElement (String.ofList (c :: cs)))
              else flaw? (trim e) :=
  flawIn?_cons c cs

theorem quotedFlaw?_eq_none_iff :
    quotedFlaw? cs = none ↔ ∃ ds, cs = '"' :: ds ++ ['"'] ∧ '"' ∉ ds := by
  unfold quotedFlaw?
  split
  case h_1 ds hd =>
    rw [between?_eq_some_iff] at hd
    subst hd
    simp
  case h_2 hn =>
    simp only [reduceCtorEq, false_iff]
    rintro ⟨ds, rfl, _⟩
    rw [between?_eq_some_iff.mpr rfl] at hn
    cases hn

theorem bareFlaw?_eq_none_iff : bareFlaw? cs = none ↔ IsQualified cs := by
  rw [← Text.isName_iff]
  unfold bareFlaw?
  split
  case isTrue h => simp [h]
  case isFalse h =>
    repeat' split
    all_goals simp [h]

theorem flaw?_opening_eq_none_iff :
    flaw? (b.opening :: cs) = none ↔
      isBalanced false [] (b.opening :: cs) ∧
        ∃ ds, cs = ds ++ [b.closing] ∧
          ∀ e ∈ b.elements (trim ds), trim e ≠ [] ∧ flaw? (trim e) = none := by
  have hw : b.opening :: cs ≠ ['_'] := by cases b <;> simp [Bracket.opening]
  have hq : b.opening ≠ '"' := by cases b <;> decide
  have ho : Bracket.ofOpening? b.opening = some b := Bracket.ofOpening?_eq_some_iff.mpr rfl
  simp only [flaw?_cons, if_neg hw, if_neg hq, ho]
  cases he : b.enclosed? (b.opening :: cs)
  case none =>
    simp only [reduceCtorEq, false_iff]
    rintro ⟨hb, ds, hd, _⟩
    rw [Bracket.enclosed?_eq_some_iff.mpr ⟨hb, ds, hd, rfl⟩] at he
    cases he
  case some es =>
    obtain ⟨hb, ds, rfl, rfl⟩ := Bracket.enclosed?_eq_some_iff.mp he
    have hi (e : List Char) (f : Malformed) :
        (if (trim e).isEmpty then some f else flaw? (trim e)) = none ↔
          trim e ≠ [] ∧ flaw? (trim e) = none := by
      split <;> simp_all
    simp only [List.findSome?_eq_none_iff, hi, hb, true_and]
    constructor
    case mp => exact fun h => ⟨ds, rfl, h⟩
    case mpr =>
      rintro ⟨ds', hd, h⟩
      rwa [List.append_cancel_right hd]

theorem flaw?_of_isQualified (h : IsQualified cs) : flaw? cs = none := by
  cases cs
  case nil => exact absurd rfl h.ne_nil
  case cons c cs =>
    have hp := h.isPlain c List.mem_cons_self
    have ho : Bracket.ofOpening? c = none := by
      refine Option.eq_none_iff_forall_ne_some.mpr fun b hb => hp.right ?_
      rw [Bracket.ofOpening?_eq_some_iff] at hb
      cases b <;> simp [hb, Bracket.opening, Text.isBracket]
    simp [flaw?_cons, hp.left, ho, bareFlaw?_eq_none_iff.mpr h]

theorem ofChars_of_isQualified (h : IsQualified cs) (hw : cs ≠ ['_']) :
    ofChars cs = .name (String.ofList cs) := by
  have hp c (hc : cs.head? = some c) := h.isPlain c (List.mem_of_mem_head? hc)
  have ho : Outline.ofTrimmed cs = .bare cs := by
    refine Outline.ofTrimmed_bare hw (fun hc => (hp _ hc).left rfl) fun b hc => (hp _ hc).right ?_
    cases b <;> decide
  rw [ofChars_eq, h.trim_eq, ho]

theorem ofChars_quoted (h : '"' ∉ cs) :
    ofChars ('"' :: cs ++ ['"']) = .literal (.ofText (String.ofList cs)) := by
  rw [ofChars_eq, (Derives.literal h).trim_eq, Outline.ofTrimmed_quoted]

theorem ofChars_bracketed :
    ofChars (b.opening :: cs ++ [b.closing]) =
      ofBracket b ((b.elements (trim cs)).map ofChars) := by
  rw [ofChars_eq, Text.trim_cons_append_singleton Bracket.not_isBlank_opening
    Bracket.not_isBlank_closing, Outline.ofTrimmed_bracketed]

theorem map_ofChars_eq (es : List (List Char)) : es.map ofChars = (es.map trim).map ofChars := by
  simp [ofChars_trim]

theorem accepted_of_derives (h : Derives cs p) : flaw? cs = none ∧ ofChars cs = p := by
  apply h.induction
  case wildcard =>
    constructor
    case left  => simp [flaw?_cons]
    case right => rw [ofChars_eq]; rfl
  case literal =>
    intro cs hq
    constructor
    case left  =>
      have hf : quotedFlaw? ('"' :: cs ++ ['"']) = none := quotedFlaw?_eq_none_iff.mpr ⟨cs, rfl, hq⟩
      simpa [flaw?_cons] using hf
    case right => exact ofChars_quoted hq
  case name => exact fun h hw => ⟨flaw?_of_isQualified h, ofChars_of_isQualified h hw⟩
  case blank =>
    intro b cs hb
    have he : b.elements (trim cs) = [] := by rw [Text.trim_eq_nil_iff.mpr hb]; rfl
    constructor
    case left =>
      refine flaw?_opening_eq_none_iff.mpr ⟨(Derives.blank hb).isBalanced, cs, rfl, ?_⟩
      simp [he]
    case right => rw [ofChars_bracketed, he, List.map_nil]
  case bracketed =>
    intro b es ps hn hp ha
    have hd : List.Forall₂ (Padded Derives) es ps := hp.imp fun _ _ h => h.mono And.left
    have ht : List.Forall₂ (fun e p => Derives (trim e) p ∧ flaw? (trim e) = none ∧
        ofChars (trim e) = p) es ps :=
      hp.imp fun _ _ h => h.rel_trim fun h => h.left.trim_eq
    have he := Bracket.map_trim_elements hn hd ha
    constructor
    case left =>
      refine flaw?_opening_eq_none_iff.mpr ⟨(Derives.bracketed hn hd ha).isBalanced, _, rfl, ?_⟩
      intro e hm
      obtain ⟨e', hm, hc⟩ := List.mem_map.mp (he ▸ List.mem_map_of_mem hm)
      have ⟨h, hf⟩ := forall_mem_of_forall₂ ht (fun h => And.intro h.left.ne_nil h.right.left) e' hm
      exact hc ▸ ⟨h, hf⟩
    case right =>
      have hm : es.map ofChars = ps := by
        rw [map_ofChars_eq, List.map_map, ← List.forall₂_eq_eq_eq, List.forall₂_map_left_iff]
        exact ht.imp fun _ _ h => h.right.right
      rw [ofChars_bracketed, map_ofChars_eq, he, ← map_ofChars_eq, hm]

theorem derives_bracketed (h : ∀ e ∈ b.elements (trim cs), Derives (trim e) (ofChars (trim e))) :
    Derives (b.opening :: cs ++ [b.closing]) (ofChars (b.opening :: cs ++ [b.closing])) := by
  rw [ofChars_bracketed]
  by_cases hb : trim cs = []
  case pos =>
    rw [hb]
    exact .blank (Text.trim_eq_nil_iff.mp hb)
  case neg =>
    rw [Bracket.elements_of_ne_nil hb] at *
    have ⟨l, r, hl, hr, hc⟩ := Text.exists_eq_append_trim_append cs
    have hn : b.pieces .start (trim cs) ≠ [] := Bracket.pieces_ne_nil
    obtain ⟨es, hm, hj⟩ :=
      Text.exists_intercalate_eq_append_append (s := b.separator) hl hr hn
    rw [Bracket.intercalate_pieces, ← hc] at hj
    rw [map_ofChars_eq, ← hm, ← map_ofChars_eq, ← hj]
    have he : ∀ e ∈ es, ∃ f ∈ b.pieces .start (trim cs), trim f = trim e := fun e he =>
      List.mem_map.mp (hm ▸ List.mem_map_of_mem he)
    refine .bracketed ?_ ?_ fun e hm => ?_
    · rintro rfl
      exact hn (List.map_eq_nil_iff.mp hm.symm)
    · rw [List.forall₂_map_right_iff, List.forall₂_same]
      intro e hm
      obtain ⟨f, hf, ht⟩ := he e hm
      have hd := h f hf
      rw [ht, ofChars_trim] at hd
      exact .of_trim hd
    · obtain ⟨f, hf, ht⟩ := he e hm
      have hu := (b.areCut_pieces .start (trim cs)).isUncut_of_mem f hf
      exact (Bracket.allows_of_isUncut hu).of_trim_eq ht

-- By induction on the length, since elements are shorter than the text that they are cut from.
theorem derives_of_flaw?_eq_none (h : flaw? cs = none) (ht : trim cs = cs) :
    Derives cs (ofChars cs) := by
  induction hn : cs.length using Nat.strong_induction_on generalizing cs
  case h n hi =>
  subst hn
  cases cs
  case nil => simp [flaw?_nil] at h
  case cons c cs =>
  by_cases hw : c :: cs = ['_']
  case pos =>
    have hc : ofChars (c :: cs) = .wildcard := by
      rw [hw, ofChars_eq]
      rfl
    exact hc ▸ hw ▸ .wildcard
  case neg =>
  by_cases hq : c = '"'
  case pos =>
    simp only [flaw?_cons, if_neg hw, if_pos hq, quotedFlaw?_eq_none_iff] at h
    obtain ⟨ds, hd, hn⟩ := h
    rw [hd, ofChars_quoted hn]
    exact .literal hn
  case neg =>
  cases ho : Bracket.ofOpening? c
  case none =>
    simp only [flaw?_cons, if_neg hw, if_neg hq, ho, bareFlaw?_eq_none_iff] at h
    rw [ofChars_of_isQualified h hw]
    exact .name h hw
  case some b =>
    obtain rfl := Bracket.ofOpening?_eq_some_iff.mp ho
    obtain ⟨hb, ds, rfl, he⟩ := flaw?_opening_eq_none_iff.mp h
    have hs := Bracket.enclosed?_eq_some_iff.mpr ⟨hb, ds, rfl, rfl⟩
    refine derives_bracketed fun e hm => ?_
    have hl := Bracket.length_lt_of_mem_enclosedIn? (by simp) hs hm
    exact hi _ hl (he e hm).right Text.trim_trim rfl

end Pattern

theorem Derives.unique (hp : Derives cs p) (hq : Derives cs q) : p = q :=
  (Pattern.accepted_of_derives hp).right ▸ (Pattern.accepted_of_derives hq).right

namespace Pattern

theorem ofStringStrict_eq_ok_iff {s : String} :
    ofStringStrict s = .ok p ↔ flaw? (trim s.toList) = none ∧ ofString s = p := by
  unfold ofStringStrict
  split <;> simp_all

theorem ofStringStrict_eq_ok_iff_derives {s : String} :
    ofStringStrict s = .ok p ↔ Derives (trim s.toList) p := by
  rw [ofStringStrict_eq_ok_iff, ofString]
  constructor
  case mp =>
    rintro ⟨hf, rfl⟩
    have hd := derives_of_flaw?_eq_none hf Text.trim_trim
    rwa [ofChars_trim] at hd
  case mpr =>
    intro h
    have ⟨hf, hp⟩ := accepted_of_derives h
    rw [ofChars_trim] at hp
    exact ⟨hf, hp⟩

-- Strict reading accepts exactly the texts of the grammar and builds exactly the pattern that the
-- grammar derives. A text has at most one pattern, and where the check takes a text apart the
-- reading takes it apart in the same way.
theorem ofStringStrict_exact :
    (∀ s p, ofStringStrict s = .ok p ↔ Derives (trim s.toList) p) ∧
    (∀ cs p q, Derives cs p → Derives cs q → p = q) ∧
    (∀ b cs es, Bracket.enclosed? b (b.opening :: cs) = some es →
      Outline.ofTrimmed (b.opening :: cs) = .bracketed b es) := by
  refine ⟨fun s p => ofStringStrict_eq_ok_iff_derives, fun cs p q => Derives.unique, ?_⟩
  intro b cs es h
  obtain ⟨_, ds, rfl, rfl⟩ := Bracket.enclosed?_eq_some_iff.mp h
  exact Outline.ofTrimmed_bracketed

end Pattern

end Switchboard
