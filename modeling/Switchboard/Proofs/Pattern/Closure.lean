import Switchboard.Proofs.Pattern.StrictReading

namespace Switchboard

open Text (isBalanced IsQualified trim)

variable {b : Bracket} {n : Nesting Int} {cs ds e : List Char} {es as bs : List (List Char)}
variable {p : Pattern} {ps : List Pattern}

theorem Nesting.run_flatMap_separator (h : ∀ e ∈ es, isBalanced false [] e) :
    start.run (es.flatMap (· ++ b.separator)) = start := by
  have hs : start.run b.separator = start := by cases b <;> rfl
  induction es
  case nil => rfl
  case cons e es hi =>
    have he : start.run e = start := Text.run_of_isBalanced_nil (h e List.mem_cons_self)
    have hr := hi fun e he => h e (List.mem_cons_of_mem _ he)
    simp [he, hs, hr]

namespace Bracket

open Nesting (start)

theorem pieces_append_append (h : (n.run cs).isTop) :
    b.pieces n (cs ++ (b.separator ++ ds)) = b.pieces n cs ++ b.pieces start ds := by
  fun_induction pieces b n cs
  case case1 n => exact pieces_append_separator isUncut_nil h
  case case2 n c cs hc hi =>
    simp only [Bool.and_eq_true, List.isPrefixOf_iff_prefix] at hc
    obtain ⟨ht, cs', hs⟩ := hc
    cases Nesting.eq_outset_of_isTop ht
    have hr : start.run b.separator = start := by cases b <;> rfl
    have hd : (c :: cs).drop b.separator.length = cs' := by simp [← hs]
    rw [← hs, Nesting.run_append, hr] at h
    rw [hd] at hi ⊢
    calc
      _ = b.pieces start ([] ++ (b.separator ++ (cs' ++ (b.separator ++ ds)))) := by simp [← hs]
      _ = [] :: b.pieces start (cs' ++ (b.separator ++ ds)) :=
        pieces_append_separator isUncut_nil ht
      _ = _ := by rw [hi h, List.cons_append]
  case case3 n c cs hc hi =>
    have hn : ¬(n.isTop && b.separator.isPrefixOf (c :: (cs ++ (b.separator ++ ds)))) := by
      simp only [Bool.and_eq_true, List.isPrefixOf_iff_prefix] at hc ⊢
      exact fun hp => hc ⟨hp.left, prefix_of_prefix_append (by simp) hp.right⟩
    have hp : b.pieces (n.step c) cs ≠ [] := pieces_ne_nil
    obtain ⟨e, es, he⟩ := List.exists_cons_of_ne_nil hp
    rw [List.cons_append, pieces, if_neg hn, hi h, he]
    rfl

theorem nil_mem_pieces (h : (n.run cs).isTop) :
    [] ∈ b.pieces n (cs ++ (b.separator ++ (b.separator ++ ds))) := by
  have hp : b.pieces start ([] ++ (b.separator ++ ds)) = [] :: b.pieces start ds :=
    pieces_append_separator isUncut_nil Nesting.isTop_outset
  rw [List.nil_append] at hp
  simp [pieces_append_append h, hp]

-- Between the two colons of such a name there is an element without anything in it.
theorem nil_mem_elements_intercalate (hd : ∀ e ∈ es, ∃ p, Derives (trim e) p) (hm : e ∈ es)
    (ha : ¬b.Allows e) : [] ∈ b.elements (b.separator.intercalate es) := by
  simp only [Allows, Classical.not_imp, not_not] at ha
  obtain ⟨hb, hq, x, y, hx⟩ := ha
  subst hb
  obtain ⟨as, bs, hs⟩ := List.append_of_mem hm
  obtain ⟨l, r, hl, _, he⟩ := Text.exists_eq_append_trim_append e
  have hb : ∀ a ∈ as, isBalanced false [] a := by
    intro a ha
    obtain ⟨p, hp⟩ := hd a (by simp [hs, ha])
    exact (Padded.of_trim hp).isBalanced Derives.isBalanced
  have hp : ∀ c ∈ x, Nesting.IsPlain c := fun c hc => hq.isPlain c (by simp [← hx, hc])
  have hr : start.run (as.flatMap (· ++ round.separator) ++ l ++ x) = start := by
    rw [Nesting.run_append, Nesting.run_append, Nesting.run_flatMap_separator hb,
      Nesting.run_of_isAllBlank hl, Nesting.run_of_forall_isPlain hp]
  have hj : round.separator.intercalate es =
      as.flatMap (· ++ round.separator) ++ l ++ x ++ (round.separator ++ (round.separator ++
        (y ++ r ++ bs.flatMap (round.separator ++ ·)))) := by
    rw [hs, Text.intercalate_append_cons, he, ← hx]
    simp [separator]
  have ht : (start.run (as.flatMap (· ++ round.separator) ++ l ++ x)).isTop := by
    rw [hr]
    exact Nesting.isTop_outset
  rw [hj, elements_of_ne_nil (by simp [separator])]
  exact nil_mem_pieces ht

-- Blanks at the ends of the joined text are blanks of its elements, which do not matter.
theorem nil_mem_elements_trim (hd : ∀ e ∈ es, ∃ p, Derives (trim e) p) (hm : e ∈ es)
    (ha : ¬b.Allows e) : [] ∈ b.elements (trim (b.separator.intercalate es)) := by
  have hn : [] ∉ es.map trim := by
    intro hn
    have ⟨e, he, ht⟩ := List.mem_map.mp hn
    have ⟨p, hp⟩ := hd e he
    exact hp.ne_nil ht
  have ⟨fs, hf, hj⟩ :=
    Text.exists_intercalate_eq_trim (s := b.separator) (List.ne_nil_of_mem hm) hn
  have ⟨f, hm, ht⟩ := List.mem_map.mp (hf ▸ List.mem_map_of_mem hm)
  have hd : ∀ f ∈ fs, ∃ p, Derives (trim f) p := by
    intro f hm
    have ⟨e, he, ht⟩ := List.mem_map.mp (hf ▸ List.mem_map_of_mem hm)
    exact ht ▸ hd e he
  rw [← hj]
  exact nil_mem_elements_intercalate hd hm fun h => ha (h.of_trim_eq ht)

end Bracket

namespace Pattern

theorem derives_enclosed_iff (hn : es ≠ [])
    (h : List.Forall₂ (fun e p => Derives (trim e) p) es ps) :
    Derives (b.opening :: b.separator.intercalate es ++ [b.closing]) p ↔
      p = ofBracket b ps ∧ ∀ e ∈ es, b.Allows e := by
  have hj : (∀ e ∈ es, b.Allows e) →
      Derives (b.opening :: b.separator.intercalate es ++ [b.closing]) (ofBracket b ps) :=
    .bracketed hn (h.imp fun _ _ h => .of_trim h)
  constructor
  case mp =>
    intro hp
    have ha : ∀ e ∈ es, b.Allows e := by
      intro e hm
      by_contra ha
      have ⟨_, ds, hs, he⟩ := flaw?_opening_eq_none_iff.mp (accepted_of_derives hp).left
      cases List.append_cancel_right hs
      have hd : ∀ e ∈ es, ∃ p, Derives (trim e) p := forall_mem_of_forall₂ h fun h => ⟨_, h⟩
      exact (he [] (Bracket.nil_mem_elements_trim hd hm ha)).left rfl
    exact ⟨hp.unique (hj ha), ha⟩
  case mpr =>
    intro ⟨hp, ha⟩
    exact hp ▸ hj ha

variable {ss : List String} {s : String}

theorem ofStringStrict_enclosed_eq_ok_iff (hn : ss ≠ [])
    (h : List.Forall₂ (fun s p => ofStringStrict s = .ok p) ss ps)
    (hs : s.toList = b.opening :: b.separator.intercalate (ss.map String.toList) ++ [b.closing]) :
    ofStringStrict s = .ok p ↔ p = ofBracket b ps ∧ ∀ s ∈ ss, b.Allows s.toList := by
  have hd : List.Forall₂ (fun e p => Derives (trim e) p) (ss.map String.toList) ps := by
    rw [List.forall₂_map_left_iff]
    exact h.imp fun _ _ => ofStringStrict_eq_ok_iff_derives.mp
  have ht : trim s.toList = s.toList := by
    rw [hs]
    exact Text.trim_cons_append_singleton Bracket.not_isBlank_opening Bracket.not_isBlank_closing
  rw [ofStringStrict_eq_ok_iff_derives, ht, hs, derives_enclosed_iff (by simpa) hd]
  simp

theorem ofStringStrict_list (hn : ss ≠ [])
    (h : List.Forall₂ (fun s p => ofStringStrict s = .ok p) ss ps) :
    ofStringStrict ("[" ++ ", ".intercalate ss ++ "]") = .ok (.list ps) := by
  rw [ofStringStrict_enclosed_eq_ok_iff (b := .square) hn h (by simp [Bracket.opening,
    Bracket.closing, Bracket.separator])]
  exact ⟨rfl, fun _ _ hb => absurd hb (by decide)⟩

-- The cells of a chain may be any patterns but names of several words, with blanks or without.
theorem ofStringStrict_cells_eq_ok_iff (hn : ss ≠ [])
    (h : List.Forall₂ (fun s p => ofStringStrict s = .ok p) ss ps) :
    ofStringStrict ("(" ++ ":".intercalate ss ++ ")") = .ok p ↔
      p = .cells ps ∧ ∀ s ∈ ss, IsQualified (trim s.toList) → ¬[':', ':'] <:+: trim s.toList := by
  rw [ofStringStrict_enclosed_eq_ok_iff (b := .round) hn h (by simp [Bracket.opening,
    Bracket.closing, Bracket.separator])]
  simp [Bracket.Allows, ofBracket]

theorem ofStringStrict_cells_eq_ok_nested :
    ofStringStrict ("(" ++ ":".intercalate ["[a::b, (c:_)]", " x ", "\"y:z::w\""] ++ ")") =
      .ok (.cells [.list [.name "a::b", .cells [.name "c", .wildcard]], .name "x",
        .literal (.ofText "y:z::w")]) := by
  have h : ∀ s ∈ ["[a::b, (c:_)]", " x ", "\"y:z::w\""],
      IsQualified (trim s.toList) → ¬[':', ':'] <:+: trim s.toList := by
    simp only [← Text.isName_iff]
    decide
  exact (ofStringStrict_cells_eq_ok_iff (by decide)
    (.cons (by decide +kernel) (.cons (by decide +kernel) (.cons (by decide +kernel) .nil)))).mpr
    ⟨rfl, h⟩

-- A name of two words is a pattern and no cell.
theorem not_cells_closed :
    ¬∀ (ss : List String) (ps : List Pattern), ss ≠ [] →
      List.Forall₂ (fun s p => ofStringStrict s = .ok p) ss ps →
      ofStringStrict ("(" ++ ":".intercalate ss ++ ")") = .ok (.cells ps) := by
  intro h
  have hc : ofStringStrict "(a::b)" = .ok (.cells [.name "a::b"]) :=
    h ["a::b"] [.name "a::b"] (by decide) (.cons (by decide +kernel) .nil)
  have hn : ofStringStrict "(a::b)" = .error (.emptyElement "(a::b)") := by decide +kernel
  rw [hn] at hc
  cases hc

end Pattern

end Switchboard
