import Switchboard.Pattern.Strict
import Switchboard.Proofs.Pattern.Pieces

namespace Switchboard

namespace Nesting

def IsPlain (c : Char) : Prop :=
  c ≠ '"' ∧ ¬Text.isBracket c

variable {δ : Type} [OfNat δ 1] [Add δ] [Sub δ]
variable {n : Nesting δ} {d : δ} {c : Char} {cs : List Char}

theorem step_of_isPlain (h : IsPlain c) : n.step c = n := by
  simp_all [IsPlain, Text.isBracket, step]

theorem run_of_forall_isPlain (h : ∀ c ∈ cs, IsPlain c) : n.run cs = n := by
  induction cs
  case nil => rfl
  case cons c cs hi =>
    rw [run_cons, step_of_isPlain (h c List.mem_cons_self)]
    exact hi fun c hc => h c (List.mem_cons_of_mem _ hc)

theorem run_of_not_mem_quote (h : '"' ∉ cs) : run ⟨true, d⟩ cs = ⟨true, d⟩ := by
  induction cs
  case nil => rfl
  case cons c cs hi =>
    rw [List.mem_cons, not_or] at h
    rw [run_cons, step, if_neg (Ne.symm h.left), if_pos rfl, hi h.right]

theorem isPlain_of_isBlank (h : Text.isBlank c) : IsPlain c := by
  constructor
  case left =>
    rintro rfl
    exact absurd h (by decide)
  case right =>
    intro hb
    simp only [Text.isBracket, Bool.or_eq_true, decide_eq_true_eq] at hb
    rcases hb with ((rfl | rfl) | rfl) | rfl <;> exact absurd h (by decide)

theorem run_of_isAllBlank (h : Text.isAllBlank cs) : n.run cs = n :=
  run_of_forall_isPlain fun c hc => isPlain_of_isBlank (List.all_eq_true.mp h c hc)

end Nesting

namespace Text

open Nesting (run step IsPlain)

variable {q : Bool} {bs ps : List Bracket} {c : Char} {cs ds : List Char} {d : Int}

-- What one character does: it is as if the pending brackets stood for the depth of the scan, and
-- brackets that are pending further out do not matter.
theorem exists_step_of_isBalanced (h : isBalanced q bs (c :: cs)) :
    ∃ q' bs', isBalanced q' bs' cs ∧
      (∀ d : Int, step ⟨q, d + bs.length⟩ c = ⟨q', d + bs'.length⟩) ∧
      ∀ ps ds, isBalanced q (bs ++ ps) (c :: ds) = isBalanced q' (bs' ++ ps) ds := by
  unfold isBalanced at h
  split at h
  case isTrue hc => exact ⟨!q, bs, h, by simp [step, hc], by simp [isBalanced, hc]⟩
  case isFalse hc =>
  split at h
  case isTrue hq => exact ⟨q, bs, h, by simp [step, hc, hq], by simp [isBalanced, hc, hq]⟩
  case isFalse hq =>
  split at h
  case isTrue hs =>
    refine ⟨q, .square :: bs, h, fun d => ?_, by simp [isBalanced, hq, hs]⟩
    simp [step, hq, hs, Int.add_assoc]
  case isFalse hs =>
  split at h
  case isTrue hr =>
    refine ⟨q, .round :: bs, h, fun d => ?_, by simp [isBalanced, hq, hr]⟩
    simp [step, hq, hr, Int.add_assoc]
  case isFalse hr =>
  split at h
  case isTrue hs' =>
    match bs with
    | .square :: bs =>
      refine ⟨q, bs, h, fun d => ?_, by simp [isBalanced, hq, hs']⟩
      simp [step, hq, hs']
      omega
    | .round :: _ | [] => simp at h
  case isFalse hs' =>
  split at h
  case isTrue hr' =>
    match bs with
    | .round :: bs =>
      refine ⟨q, bs, h, fun d => ?_, by simp [isBalanced, hq, hr']⟩
      simp [step, hq, hr']
      omega
    | .square :: _ | [] => simp at h
  case isFalse hr' =>
    exact ⟨q, bs, h, by simp [step, *], by simp [isBalanced, *]⟩

theorem run_of_isBalanced (h : isBalanced q bs cs) : run ⟨q, d + bs.length⟩ cs = ⟨false, d⟩ := by
  induction cs generalizing q bs
  case nil => simp_all [isBalanced]
  case cons c cs hi =>
    have ⟨_, _, h, hs, _⟩ := exists_step_of_isBalanced h
    rw [Nesting.run_cons, hs, hi h]

theorem run_of_isBalanced_nil (h : isBalanced false [] cs) : run ⟨false, d⟩ cs = ⟨false, d⟩ := by
  simpa using run_of_isBalanced (d := d) h

theorem isBalanced_append (h : isBalanced q bs cs) :
    isBalanced q (bs ++ ps) (cs ++ ds) = isBalanced false ps ds := by
  induction cs generalizing q bs
  case nil => simp_all [isBalanced]
  case cons c cs hi =>
    have ⟨_, _, h, _, hs⟩ := exists_step_of_isBalanced h
    rw [List.cons_append, hs, hi h]

theorem isBalanced_append_of_isBalanced (hc : isBalanced false [] cs)
    (hd : isBalanced false [] ds) : isBalanced false [] (cs ++ ds) := by
  have h : isBalanced false ([] ++ []) (cs ++ ds) = isBalanced false [] ds := isBalanced_append hc
  exact h.trans hd

theorem isBalanced_of_forall_isPlain (h : ∀ c ∈ cs, IsPlain c) : isBalanced false [] cs := by
  induction cs
  case nil => rfl
  case cons c cs hi =>
    have ⟨hq, hb⟩ := h c List.mem_cons_self
    simp only [isBracket, Bool.or_eq_true, decide_eq_true_eq, not_or] at hb
    have hr := hi fun c hc => h c (List.mem_cons_of_mem _ hc)
    simp [isBalanced, hq, hb, hr]

theorem isBalanced_of_isAllBlank (h : isAllBlank cs) : isBalanced false [] cs :=
  isBalanced_of_forall_isPlain fun c hc => Nesting.isPlain_of_isBlank (List.all_eq_true.mp h c hc)

theorem isBalanced_quoted (h : '"' ∉ cs) : isBalanced true [] (cs ++ ['"']) := by
  induction cs
  case nil => rfl
  case cons c cs hi =>
    rw [List.mem_cons, not_or] at h
    simp [isBalanced, Ne.symm h.left, hi h.right]

theorem isBalanced_bracketed (b : Bracket) (h : isBalanced false [] cs) :
    isBalanced false [] (b.opening :: cs ++ [b.closing]) := by
  have h' : isBalanced false ([] ++ [b]) (cs ++ [b.closing]) = isBalanced false [b] [b.closing] :=
    isBalanced_append h
  cases b <;> exact h'

theorem isBalanced_intercalate {b : Bracket} {es : List (List Char)}
    (h : ∀ e ∈ es, isBalanced false [] e) : isBalanced false [] (b.separator.intercalate es) := by
  have hs : isBalanced false [] b.separator := by cases b <;> rfl
  induction es
  case nil => rfl
  case cons e es hi =>
    have he := h e List.mem_cons_self
    cases es
    case nil => rwa [List.intercalate_singleton]
    case cons e' es =>
      have hr := hi fun e he => h e (List.mem_cons_of_mem _ he)
      rw [List.intercalate_cons_cons]
      exact isBalanced_append_of_isBalanced (isBalanced_append_of_isBalanced he hs) hr

end Text

namespace Bracket

variable {b : Bracket} {n : Nesting Int} {cs : List Char} {d : Int}

theorem isSealed_of_forall_isPlain (h : ∀ c ∈ cs, Nesting.IsPlain c ∧ c ∉ b.separator.head?) :
    b.IsSealed n cs := by
  induction cs generalizing n
  case nil => trivial
  case cons c cs hi =>
    exact ⟨fun _ => (h c List.mem_cons_self).right, hi fun c hc => h c (List.mem_cons_of_mem _ hc)⟩

theorem isSealed_of_isAllBlank (h : Text.isAllBlank cs) : b.IsSealed n cs := by
  refine isSealed_of_forall_isPlain fun c hc => ?_
  have hb := List.all_eq_true.mp h c hc
  refine ⟨Nesting.isPlain_of_isBlank hb, fun hs => ?_⟩
  cases b <;> cases hs <;> exact absurd hb (by decide)

theorem isSealed_quoted (h : '"' ∉ cs) : b.IsSealed ⟨true, d⟩ cs := by
  induction cs
  case nil => trivial
  case cons c cs hi =>
    rw [List.mem_cons, not_or] at h
    refine ⟨nofun, ?_⟩
    rw [Nesting.step, if_neg (Ne.symm h.left), if_pos rfl]
    exact hi h.right

-- Nothing inside of a balanced text is at the top if the text itself is not.
theorem isSealed_of_isBalanced {q : Bool} {bs : List Bracket} (h : Text.isBalanced q bs cs)
    (hd : 0 < d) : b.IsSealed ⟨q, d + bs.length⟩ cs := by
  induction cs generalizing q bs
  case nil => trivial
  case cons c cs hi =>
    have ⟨_, _, h, hs, _⟩ := Text.exists_step_of_isBalanced h
    refine ⟨fun ht => ?_, hs d ▸ hi h⟩
    simp only [Nesting.isTop, Bool.and_eq_true, beq_iff_eq] at ht
    omega

theorem isSealed_bracketed {b' : Bracket} (h : Text.isBalanced false [] cs) :
    b.IsSealed .start (b'.opening :: cs ++ [b'.closing]) := by
  have hs : Nesting.start.step b'.opening = ⟨false, 1⟩ := by cases b' <;> rfl
  have hr : (⟨false, 1⟩ : Nesting Int).run cs = ⟨false, 1⟩ := Text.run_of_isBalanced_nil h
  have hc : b.IsSealed (⟨false, 1⟩ : Nesting Int) cs :=
    isSealed_of_isBalanced (d := 1) h Int.one_pos
  refine ⟨fun _ => ?_, ?_⟩
  · cases b <;> cases b' <;> simp [separator, opening]
  · rw [hs]
    refine isSealed_append.mpr ⟨hc, ?_⟩
    rw [hr]
    exact ⟨fun ht => absurd ht (by decide), trivial⟩

end Bracket

end Switchboard
