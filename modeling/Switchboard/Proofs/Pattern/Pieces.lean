import Mathlib.Data.List.Infix
import Switchboard.Pattern.Elements

namespace Switchboard

variable {δ : Type}

namespace Nesting

theorem isTop_outset [OfNat δ 0] [DecidableEq δ] : (outset δ).isTop := by
  simp [isTop, outset]

theorem eq_outset_of_isTop [OfNat δ 0] [DecidableEq δ] {n : Nesting δ} (h : n.isTop) :
    n = outset δ := by
  obtain ⟨q, d⟩ := n
  simp_all [isTop, outset]

variable [OfNat δ 1] [Add δ] [Sub δ]

def run (n : Nesting δ) (cs : List Char) : Nesting δ :=
  cs.foldl step n

variable {n : Nesting δ} {c : Char} {cs ds : List Char}

@[simp]
theorem run_nil : n.run [] = n :=
  rfl

@[simp]
theorem run_cons : n.run (c :: cs) = (n.step c).run cs :=
  rfl

@[simp]
theorem run_append : n.run (cs ++ ds) = (n.run cs).run ds :=
  List.foldl_append

end Nesting

namespace Bracket

variable [OfNat δ 0] [OfNat δ 1] [Add δ] [Sub δ] [DecidableEq δ]

open Nesting (outset start)

-- A text that holds no separator at the top when its scan starts from `n`.
def IsUncut (b : Bracket) (n : Nesting δ) (cs : List Char) : Prop :=
  ∀ as bs, cs = as ++ bs → (n.run as).isTop → ¬b.separator <+: bs

-- A text in which no character at the top is one that begins a separator. Unlike uncut texts, such
-- texts can be put together.
def IsSealed (b : Bracket) : Nesting δ → List Char → Prop
  | _, []      => True
  | n, c :: cs => (n.isTop → c ∉ b.separator.head?) ∧ IsSealed b (n.step c) cs

-- Pieces of a text whose scan starts from `n`. After a cut the scan starts afresh.
inductive AreCut (b : Bracket) : Nesting δ → List (List Char) → Prop
  | last {n e}   : IsUncut b n e → AreCut b n [e]
  | cut {n e es} : IsUncut b n e → (n.run e).isTop → AreCut b (outset δ) es → AreCut b n (e :: es)

variable {b : Bracket} {n : Nesting δ} {c : Char} {cs ds e : List Char} {es : List (List Char)}

theorem separator_ne_nil : b.separator ≠ [] :=
  List.ne_nil_of_length_pos b.length_separator_pos

-- A separator cannot begin inside a text and end in a separator after it.
theorem prefix_of_prefix_append (hc : cs ≠ [])
    (h : b.separator <+: cs ++ (b.separator ++ ds)) : b.separator <+: cs := by
  match cs with
  | [c]          => cases b <;> simp_all [separator, eq_comm]
  | c :: c' :: _ => cases b <;> simp_all [separator, eq_comm]

theorem isUncut_nil : b.IsUncut n [] := by
  intro as bs h
  simp_all [separator_ne_nil]

theorem isUncut_cons :
    b.IsUncut n (c :: cs) ↔ (n.isTop → ¬b.separator <+: c :: cs) ∧ b.IsUncut (n.step c) cs := by
  constructor
  case mp =>
    intro h
    exact ⟨h [] _ rfl, fun as bs hs => h (c :: as) bs (by simp [hs])⟩
  case mpr =>
    intro ⟨hc, h⟩ as bs hs
    cases as
    case nil =>
      rw [List.nil_append] at hs
      exact hs ▸ hc
    case cons a as =>
      rw [List.cons_append, List.cons.injEq] at hs
      exact hs.left ▸ h as bs hs.right

theorem isUncut_append (h : b.IsUncut n (cs ++ ds)) :
    b.IsUncut n cs ∧ b.IsUncut (n.run cs) ds := by
  induction cs generalizing n
  case nil => exact ⟨isUncut_nil, h⟩
  case cons c cs hi =>
    rw [List.cons_append, isUncut_cons] at h
    have ⟨hc, hd⟩ := hi h.right
    exact ⟨isUncut_cons.mpr ⟨fun ht hp => h.left ht (hp.trans (by simp)), hc⟩, hd⟩

theorem isSealed_append : b.IsSealed n (cs ++ ds) ↔ b.IsSealed n cs ∧ b.IsSealed (n.run cs) ds := by
  induction cs generalizing n
  case nil => simp [IsSealed]
  case cons c cs hi => simp [IsSealed, hi, and_assoc]

theorem IsSealed.isUncut (h : b.IsSealed n cs) : b.IsUncut n cs := by
  induction cs generalizing n
  case nil => exact isUncut_nil
  case cons c cs hi =>
    refine isUncut_cons.mpr ⟨fun hn hp => h.left hn ?_, hi h.right⟩
    obtain ⟨s, ss, hs⟩ := List.exists_cons_of_ne_nil (separator_ne_nil (b := b))
    rw [hs, List.cons_prefix_cons] at hp
    simp [hs, hp.left]

theorem AreCut.ne_nil : b.AreCut n es → es ≠ []
  | .last _ | .cut .. => by simp

theorem areCut_of_forall (hn : es ≠ [])
    (h : ∀ e ∈ es, b.IsUncut (outset δ) e ∧ ((outset δ).run e).isTop) :
    b.AreCut (outset δ) es := by
  induction es
  case nil => contradiction
  case cons e es hi =>
    have ⟨he, ht⟩ := h e List.mem_cons_self
    cases es
    case nil => exact .last he
    case cons e' es => exact .cut he ht (hi (by simp) fun e hm => h e (List.mem_cons_of_mem _ hm))

theorem AreCut.induction {motive : List (List Char) → Prop}
    (last : ∀ {e}, b.IsUncut (outset δ) e → motive [e])
    (cut : ∀ {e es}, b.IsUncut (outset δ) e → (outset δ).run e = outset δ → es ≠ [] → motive es →
      motive (e :: es))
    (h : b.AreCut (outset δ) es) : motive es := by
  generalize hn : outset δ = n at h
  induction h
  case last he => exact last (hn ▸ he)
  case cut he ht h hi =>
    subst hn
    exact cut he (Nesting.eq_outset_of_isTop ht) h.ne_nil (hi rfl)

theorem AreCut.isUncut_of_mem (h : b.AreCut (outset δ) es) : ∀ e ∈ es, b.IsUncut (outset δ) e := by
  apply h.induction
  case last => exact fun he => by simpa using he
  case cut  => exact fun he _ _ hi => by simpa [he] using hi

theorem AreCut.modifyHead_cons (h : b.AreCut (n.step c) es)
    (hc : n.isTop → ¬b.separator <+: c :: b.separator.intercalate es) :
    b.AreCut n (es.modifyHead (c :: ·)) := by
  cases h
  case last e he =>
    rw [List.intercalate_singleton] at hc
    exact .last (isUncut_cons.mpr ⟨hc, he⟩)
  case cut e es h he ht =>
    refine .cut (isUncut_cons.mpr ⟨fun hn hp => hc hn ?_, he⟩) ht h
    rw [List.intercalate_cons_of_ne_nil h.ne_nil]
    exact hp.trans (by simp)

theorem intercalate_modifyHead_cons (h : es ≠ []) :
    b.separator.intercalate (es.modifyHead (c :: ·)) = c :: b.separator.intercalate es := by
  cases es
  case nil => contradiction
  case cons e es => cases es <;> simp

theorem pieces_ne_nil : b.pieces n cs ≠ [] := by
  fun_induction pieces b n cs <;> simp_all [← List.length_eq_zero_iff]

theorem intercalate_pieces (b : Bracket) (n : Nesting δ) (cs : List Char) :
    b.separator.intercalate (b.pieces n cs) = cs := by
  fun_induction pieces b n cs
  case case1 => rfl
  case case2 n c cs h hi =>
    simp only [Bool.and_eq_true, List.isPrefixOf_iff_prefix] at h
    rw [List.intercalate_cons_of_ne_nil pieces_ne_nil, hi, List.nil_append]
    exact (List.prefix_append_drop h.right).symm
  case case3 n c cs h hi => rw [intercalate_modifyHead_cons pieces_ne_nil, hi]

theorem areCut_pieces (b : Bracket) (n : Nesting δ) (cs : List Char) :
    b.AreCut n (b.pieces n cs) := by
  fun_induction pieces b n cs
  case case1 => exact .last isUncut_nil
  case case2 n c cs h hi =>
    simp only [Bool.and_eq_true] at h
    exact .cut isUncut_nil h.left (Nesting.eq_outset_of_isTop h.left ▸ hi)
  case case3 n c cs h hi =>
    refine hi.modifyHead_cons fun hn hp => h ?_
    rw [intercalate_pieces] at hp
    simp only [hn, List.isPrefixOf_iff_prefix.mpr hp, Bool.and_self]

theorem pieces_of_isUncut (h : b.IsUncut n cs) : b.pieces n cs = [cs] := by
  induction cs generalizing n
  case nil => rw [pieces]
  case cons c cs hi =>
    obtain ⟨hc, h⟩ := isUncut_cons.mp h
    simp only [← List.isPrefixOf_iff_prefix] at hc
    rw [pieces, if_neg (by simpa using hc), hi h, List.modifyHead_cons]

theorem pieces_append_separator (h : b.IsUncut n e) (ht : (n.run e).isTop) :
    b.pieces n (e ++ (b.separator ++ cs)) = e :: b.pieces (outset δ) cs := by
  induction e generalizing n
  case nil =>
    have hp : b.separator.isPrefixOf (b.separator ++ cs) := by simp
    obtain ⟨s, ss, hs⟩ := List.exists_cons_of_ne_nil (separator_ne_nil (b := b))
    rw [List.nil_append, ← Nesting.eq_outset_of_isTop ht, Nesting.run_nil] at *
    rw [hs, List.cons_append] at hp ⊢
    rw [pieces, hs, if_pos (by simp [ht])]
    simp
  case cons c e hi =>
    obtain ⟨hc, h⟩ := isUncut_cons.mp h
    have hn : ¬(n.isTop && b.separator.isPrefixOf (c :: (e ++ (b.separator ++ cs)))) := by
      simp only [Bool.and_eq_true, List.isPrefixOf_iff_prefix]
      exact fun hp => hc hp.left (prefix_of_prefix_append (by simp) hp.right)
    rw [List.cons_append, pieces, if_neg hn, hi h ht, List.modifyHead_cons]

theorem pieces_intercalate (h : b.AreCut n es) :
    b.pieces n (b.separator.intercalate es) = es := by
  induction h
  case last h => rw [List.intercalate_singleton, pieces_of_isUncut h]
  case cut he ht h hi =>
    rw [List.intercalate_cons_of_ne_nil h.ne_nil, List.append_assoc,
      pieces_append_separator he ht, hi]

theorem pieces_eq_iff :
    b.pieces n cs = es ↔ b.separator.intercalate es = cs ∧ b.AreCut n es := by
  constructor
  case mp =>
    rintro rfl
    exact ⟨b.intercalate_pieces n cs, b.areCut_pieces n cs⟩
  case mpr =>
    rintro ⟨rfl, h⟩
    exact pieces_intercalate h

theorem elementsIn_of_ne_nil (h : cs ≠ []) : b.elementsIn δ cs = b.pieces (outset δ) cs := by
  simp [elementsIn, h]

theorem elements_of_ne_nil (h : cs ≠ []) : b.elements cs = b.pieces start cs :=
  elementsIn_of_ne_nil h

theorem elements_intercalate (h : b.AreCut start es) (hn : [] ∉ es) :
    b.elements (b.separator.intercalate es) = es := by
  have hp := pieces_intercalate h
  rw [elements_of_ne_nil, hp]
  intro hc
  rw [hc, pieces] at hp
  simp [← hp] at hn

end Bracket

end Switchboard
