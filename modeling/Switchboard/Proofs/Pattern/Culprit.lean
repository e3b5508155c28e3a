import Switchboard.Proofs.Pattern.StrictReading

namespace Switchboard

open Text (isBalanced trim)

def Malformed.part? : Malformed → Option String
  | empty                => none
  | unterminatedQuote s  => some s
  | unbalancedBrackets s => some s
  | emptyElement s       => some s
  | invalidName s        => some s

namespace Pattern

def IsWellFormed (s : String) : Prop :=
  ∃ p, ofStringStrict s = .ok p

-- A way from a text into a part of it, from container to element. The elements before the one that
-- is entered are well-formed.
inductive LeadsTo : List Char → List Char → Prop
  | here : LeadsTo cs cs
  | enter {b : Bracket} {ds : List Char}
    (balanced : isBalanced false [] (b.opening :: ds ++ [b.closing]))
    (elements : b.elements (trim ds) = as ++ e :: bs)
    (before   : ∀ a ∈ as, IsWellFormed (String.ofList a))
    (onward   : LeadsTo (trim e) ts) :
    LeadsTo (b.opening :: ds ++ [b.closing]) ts

-- What a flaw of a text comes from: the text as a whole, or the first of its elements that has a
-- flaw of its own.
inductive Origin (f : Malformed) : List Char → Prop
  | whole (part : f.part? = some (String.ofList cs)) : Origin f cs
  | element {b : Bracket} {ds : List Char}
    (balanced : isBalanced false [] (b.opening :: ds ++ [b.closing]))
    (elements : b.elements (trim ds) = as ++ e :: bs)
    (before   : ∀ a ∈ as, flaw? (trim a) = none)
    (ne_nil   : trim e ≠ [])
    (flaw     : flaw? (trim e) = some f) :
    Origin f (b.opening :: ds ++ [b.closing])

structure IsBlamed (f : Malformed) (cs ts : List Char) : Prop where
  part    : f.part? = some (String.ofList ts)
  ne_nil  : ts ≠ []
  trim_eq : trim ts = ts
  within  : ts <:+: cs
  error   : ofStringStrict (String.ofList ts) = .error f
  leadsTo : LeadsTo (trim cs) ts

variable {b : Bracket} {c : Char} {cs ds ts e : List Char} {f : Malformed} {s : String}

theorem isWellFormed_iff : IsWellFormed s ↔ flaw? (trim s.toList) = none := by
  simp [IsWellFormed, ofStringStrict_eq_ok_iff]

theorem ofStringStrict_eq_error_iff :
    ofStringStrict s = .error f ↔ flaw? (trim s.toList) = some f := by
  rw [ofStringStrict]
  cases flaw? (trim s.toList) <;> simp

theorem part?_of_quotedFlaw? (h : quotedFlaw? cs = some f) : f.part? = some (String.ofList cs) := by
  unfold quotedFlaw? at h
  repeat' split at h
  all_goals
    cases h
    try rfl

theorem part?_of_bareFlaw? (h : bareFlaw? cs = some f) : f.part? = some (String.ofList cs) := by
  unfold bareFlaw? at h
  repeat' split at h
  all_goals
    cases h
    try rfl

theorem origin_of_opening (h : flaw? (b.opening :: cs) = some f) : Origin f (b.opening :: cs) := by
  have hu : b.opening ≠ '_' := by cases b <;> decide
  have hq : b.opening ≠ '"' := by cases b <;> decide
  have hw : b.opening :: cs ≠ ['_'] := fun h => hu (List.cons.inj h).left
  have ho : Bracket.ofOpening? b.opening = some b := Bracket.ofOpening?_eq_some_iff.mpr rfl
  simp only [flaw?_cons, if_neg hw, if_neg hq, ho] at h
  cases he : b.enclosed? (b.opening :: cs)
  case none =>
    rw [he] at h
    cases h
    exact .whole rfl
  case some es =>
    simp only [he] at h
    have ⟨as, e, bs, hes, hf, ha⟩ := List.findSome?_eq_some_iff.mp h
    split at hf
    case isTrue =>
      cases hf
      exact .whole rfl
    case isFalse hn =>
      have ⟨hb, ds, hd, hs⟩ := Bracket.enclosed?_eq_some_iff.mp he
      subst hd
      refine .element hb (hs ▸ hes) (fun a hm => ?_) (by simpa using hn) hf
      have hf := ha a hm
      split at hf
      case isTrue  => cases hf
      case isFalse => exact hf

theorem origin_of_flaw? (h : flaw? cs = some f) (hn : cs ≠ []) : Origin f cs := by
  cases cs
  case nil => exact absurd rfl hn
  case cons c cs =>
    cases ho : Bracket.ofOpening? c
    case some b =>
      cases Bracket.ofOpening?_eq_some_iff.mp ho
      exact origin_of_opening h
    case none =>
      simp only [flaw?_cons, ho] at h
      split at h
      case isTrue  => cases h
      case isFalse =>
        split at h
        case isTrue  => exact .whole (part?_of_quotedFlaw? h)
        case isFalse => exact .whole (part?_of_bareFlaw? h)

theorem infix_of_mem_elements (h : e ∈ b.elements cs) : e <:+: cs := by
  by_cases hn : cs = []
  case pos =>
    subst hn
    cases h
  case neg =>
    rw [Bracket.elements_of_ne_nil hn] at h
    have hi := Text.infix_intercalate_of_mem (s := b.separator) h
    rwa [Bracket.intercalate_pieces] at hi

theorem trim_infix_of_mem_elements (h : e ∈ b.elements (trim ds)) :
    trim e <:+: b.opening :: ds ++ [b.closing] := by
  apply (Text.trim_infix e).trans
  apply (infix_of_mem_elements h).trans
  apply (Text.trim_infix ds).trans
  exact ⟨[b.opening], [b.closing], rfl⟩

theorem length_trim_lt_of_mem_elements (h : e ∈ b.elements (trim ds)) :
    (trim e).length < (b.opening :: ds ++ [b.closing]).length := by
  have he := ((Text.trim_infix e).trans (infix_of_mem_elements h)).length_le
  have hd := (Text.trim_infix ds).length_le
  simp only [List.length_append, List.length_cons]
  omega

-- By induction on the length, since elements are shorter than their containers.
theorem exists_isBlamed (h : flaw? cs = some f) (hn : cs ≠ []) (ht : trim cs = cs) :
    ∃ ts, IsBlamed f cs ts := by
  induction hl : cs.length using Nat.strong_induction_on generalizing cs
  case h n hi =>
  subst hl
  cases origin_of_flaw? h hn
  case whole hp =>
    have he : ofStringStrict (String.ofList cs) = .error f := by
      simpa [ofStringStrict_eq_error_iff, ht] using h
    exact ⟨cs, hp, hn, ht, List.infix_refl cs, he, ht.symm ▸ .here⟩
  case element as e bs b ds hb he ha hne hf =>
    have hm : e ∈ b.elements (trim ds) := by simp [he]
    have ⟨ts, hts⟩ := hi _ (length_trim_lt_of_mem_elements hm) hf hne Text.trim_trim rfl
    have hw : ∀ a ∈ as, IsWellFormed (String.ofList a) := fun a hm => by
      simpa [isWellFormed_iff] using ha a hm
    have hto : LeadsTo (trim e) ts := @Text.trim_trim e ▸ hts.leadsTo
    exact ⟨ts, { hts with
      within  := hts.within.trans (trim_infix_of_mem_elements hm)
      leadsTo := ht.symm ▸ .enter hb he hw hto }⟩

-- Only a text of blanks is refused for being empty. Every other flaw is blamed on a part that has
-- it on its own, so that the part is enough to find it.
theorem ofStringStrict_blames (h : ofStringStrict s = .error f) :
    (f = .empty ↔ trim s.toList = []) ∧ (f ≠ .empty → ∃ ts, IsBlamed f s.toList ts) := by
  have hf := ofStringStrict_eq_error_iff.mp h
  by_cases hn : trim s.toList = []
  case pos =>
    rw [hn, flaw?_nil] at hf
    cases hf
    exact ⟨iff_of_true rfl hn, fun hf => absurd rfl hf⟩
  case neg =>
    have ⟨ts, hts⟩ := exists_isBlamed hf hn Text.trim_trim
    have he : f ≠ .empty := by
      intro he
      subst he
      cases hts.part
    refine ⟨iff_of_false he hn, fun _ => ⟨ts, { hts with
      within  := hts.within.trans (Text.trim_infix _)
      leadsTo := ?_ }⟩⟩
    exact @Text.trim_trim s.toList ▸ hts.leadsTo

-- The element between two separators is empty, but the first flaw is that of a name before it.
theorem ofStringStrict_blames_nested :
    ofStringStrict " [a, (b:[c d]), , e] " = .error (.invalidName "c d") ∧
      trim " [a, (b:[c d]), , e] ".toList ≠ [] ∧
      IsBlamed (.invalidName "c d") " [a, (b:[c d]), , e] ".toList "c d".toList := by
  have h : ofStringStrict " [a, (b:[c d]), , e] " = .error (.invalidName "c d") := by
    decide +kernel
  have ⟨he, hb⟩ := ofStringStrict_blames h
  have ⟨ts, hts⟩ := hb nofun
  have ht : "c d" = String.ofList ts := Option.some.inj hts.part
  have hc : "c d".toList = ts := by rw [ht, String.toList_ofList]
  refine ⟨h, fun hn => Malformed.noConfusion (he.mpr hn), ?_⟩
  exact hc ▸ hts

end Pattern

end Switchboard
