import Mathlib.Algebra.Group.Nat.Even
import Switchboard.Proofs.Pattern.Bytes

namespace Switchboard

open Nesting (outset start)

namespace Text

def outside (cs : List Char) : List Char :=
  (cs.zipIdx.filter fun (_, i) => Even ((cs.take i).count '"')).map Prod.fst

-- The opening brackets outside quotes less the closing ones, square and round ones together.
def depth (cs : List Char) : Int :=
  (outside cs).countP (· ∈ ['[', '(']) - (outside cs).countP (· ∈ [']', ')'])

-- All quotes are closed, and as many brackets are opened as are closed, in whatever order.
structure IsLevel (cs : List Char) : Prop where
  even  : Even (cs.count '"')
  depth : depth cs = 0

-- What 32 bits take for level: a surplus of 2³² brackets is as good as none.
structure SeemsLevel (cs : List Char) : Prop where
  even  : Even (cs.count '"')
  depth : 0x100000000 ∣ depth cs

variable {c : Char} {cs : List Char}

theorem outside_concat :
    outside (cs ++ [c]) = outside cs ++ if Even (cs.count '"') then [c] else [] := by
  have ht : ∀ p ∈ cs.zipIdx, (cs ++ [c]).take p.2 = cs.take p.2 := fun p hp => by
    have := List.mem_zipIdx hp
    exact List.take_append_of_le_length (by omega)
  simp only [outside, List.zipIdx_append, List.filter_append, List.map_append]
  congr 2
  · exact List.filter_congr fun p hp => by rw [ht p hp]
  · by_cases h : Even (cs.count '"') <;> simp [h]

theorem depth_concat_of_even (h : Even (cs.count '"')) :
    depth (cs ++ [c]) =
      if c = '[' ∨ c = '(' then depth cs + 1
      else if c = ']' ∨ c = ')' then depth cs - 1
      else depth cs := by
  by_cases ho : c = '[' ∨ c = '('
  case pos =>
    have hc : ¬(c = ']' ∨ c = ')') := by rintro (rfl | rfl) <;> simp at ho
    simp [depth, outside_concat, h, ho, hc]
    omega
  case neg =>
    by_cases hc : c = ']' ∨ c = ')'
    case pos => simp [depth, outside_concat, h, ho, hc, Int.sub_sub]
    case neg => simp [depth, outside_concat, h, ho, hc]

theorem depth_concat_of_not_even (h : ¬Even (cs.count '"')) : depth (cs ++ [c]) = depth cs := by
  simp [depth, outside_concat, h]

theorem run_start (cs : List Char) :
    start.run cs = ⟨!decide (Even (cs.count '"')), depth cs⟩ := by
  induction cs using List.reverseRecOn
  case nil => rfl
  case append_singleton cs c hi =>
    rw [Nesting.run_append, hi, Nesting.run_cons, Nesting.run_nil, Nesting.step]
    by_cases h : Even (cs.count '"')
    case neg =>
      rw [depth_concat_of_not_even h]
      by_cases hq : c = '"' <;> simp [h, hq, Nat.even_add_one]
    case pos =>
      rw [depth_concat_of_even h]
      by_cases hq : c = '"'
      case pos => simp [h, hq, Nat.even_add_one]
      case neg => simp [h, hq, apply_ite (Nesting.mk false)]

theorem isTop_run_start : (start.run cs).isTop ↔ IsLevel cs := by
  rw [run_start]
  simp only [Nesting.isTop, Bool.not_not, Bool.and_eq_true, decide_eq_true_eq, beq_iff_eq]
  exact ⟨fun h => ⟨h.left, h.right⟩, fun h => ⟨h.even, h.depth⟩⟩

theorem isTop_run_outset : ((outset Int32).run cs).isTop ↔ SeemsLevel cs := by
  rw [← Nesting.wrap_start, ← Nesting.wrap_run, run_start]
  simp only [Nesting.isTop, Nesting.wrap, Bool.not_not, Bool.and_eq_true, decide_eq_true_eq,
    beq_iff_eq, Nesting.ofInt_eq_zero_iff]
  exact ⟨fun h => ⟨h.left, h.right⟩, fun h => ⟨h.even, h.depth⟩⟩

end Text

namespace Bracket

open Text (IsLevel SeemsLevel)

section

variable {δ : Type} [OfNat δ 0] [OfNat δ 1] [Add δ] [Sub δ] [DecidableEq δ]
variable {b : Bracket} {cs : List Char} {es : List (List Char)} {level : List Char → Prop}

-- Texts that join to a text, of which all but the last are level and none has a separator at the
-- top.
structure AreElements (b : Bracket) (level : List Char → Prop) (cs : List Char)
    (es : List (List Char)) : Prop where
  join   : b.separator.intercalate es = cs
  closed : ∀ e ∈ es.dropLast, level e
  uncut  : ∀ e ∈ es, ∀ as bs, e = as ++ bs → level as → ¬b.separator <+: bs

theorem areCut_iff :
    b.AreCut (outset δ) es ↔
      es ≠ [] ∧ (∀ e ∈ es.dropLast, ((outset δ).run e).isTop) ∧
        ∀ e ∈ es, b.IsUncut (outset δ) e := by
  constructor
  case mp =>
    intro h
    refine ⟨h.ne_nil, ?_, h.isUncut_of_mem⟩
    apply h.induction
    case last => simp
    case cut =>
      intro e es _ hr hn hi
      rw [List.dropLast_cons_of_ne_nil hn, List.forall_mem_cons, hr]
      exact ⟨Nesting.isTop_outset, hi⟩
  case mpr =>
    rintro ⟨hn, ht, hu⟩
    induction es
    case nil => contradiction
    case cons e es hi =>
      obtain ⟨he, hu⟩ := List.forall_mem_cons.mp hu
      cases es
      case nil => exact .last he
      case cons e' es =>
        rw [List.dropLast_cons_of_ne_nil (by simp)] at ht
        obtain ⟨het, ht⟩ := List.forall_mem_cons.mp ht
        exact .cut he het (hi (by simp) ht hu)

-- Whatever the depth is counted by, the elements are the only texts that are level to the scan.
theorem elementsIn_eq_iff (hl : ∀ cs, ((outset δ).run cs).isTop ↔ level cs) (hn : cs ≠ []) :
    b.elementsIn δ cs = es ↔ b.AreElements level cs es := by
  rw [elementsIn_of_ne_nil hn, pieces_eq_iff, areCut_iff]
  simp only [IsUncut, hl]
  constructor
  case mp =>
    rintro ⟨hi, _, hc, hu⟩
    exact ⟨hi, hc, hu⟩
  case mpr =>
    intro h
    refine ⟨h.join, fun he => hn ?_, h.closed, h.uncut⟩
    exact h.join.symm.trans (he ▸ rfl)

end

-- Every cut in the bytes of a text is a boundary of characters, and the elements are the only texts
-- that join to it, of which all but the last are level and none has a separator at the top. The
-- depth is counted in 32 bits, which hold it unless the text has 2³¹ characters.
theorem elements_exact (b : Bracket) (s : String) (h : s ≠ "") :
    b.cut? s = some ((b.elementsIn Int32 s.toList).map String.ofList) ∧
    (∀ es, b.elementsIn Int32 s.toList = es ↔ b.AreElements SeemsLevel s.toList es) ∧
    (s.length < 0x80000000 →
      (∀ as, as <+: s.toList → ((outset Int32).run as).depth.toInt = Text.depth as) ∧
      ∀ es, b.elementsIn Int32 s.toList = es ↔ b.AreElements IsLevel s.toList es) := by
  have hs : s.toList ≠ [] := by simpa using h
  refine ⟨b.cut?_eq s, fun es => ?_, fun hl => ?_⟩
  · exact elementsIn_eq_iff (fun _ => Text.isTop_run_outset) hs
  · rw [← String.length_toList] at hl
    refine ⟨fun as ha => ?_, fun es => ?_⟩
    · rw [Nesting.toInt_depth_run (Nat.lt_of_le_of_lt ha.length_le hl), Text.run_start]
    · rw [elementsIn_int32 hl, elements]
      exact elementsIn_eq_iff (fun _ => Text.isTop_run_start) hs

-- Separators between quotes, in brackets and behind a bracket that closes nothing cut nothing.
theorem elements_exact_unbalanced :
    "ü, [\"é, ]\", ß], )ä, z" ≠ "" ∧
      "ü, [\"é, ]\", ß], )ä, z".length < 0x80000000 ∧
      square.cut? "ü, [\"é, ]\", ß], )ä, z" = some ["ü", "[\"é, ]\", ß]", ")ä, z"] ∧
      square.AreElements IsLevel "ü, [\"é, ]\", ß], )ä, z".toList
        (["ü", "[\"é, ]\", ß]", ")ä, z"].map String.toList) := by
  have hs : "ü, [\"é, ]\", ß], )ä, z" ≠ "" := by decide
  have hl : "ü, [\"é, ]\", ß], )ä, z".length < 0x80000000 := by decide
  have ⟨hc, _, hi⟩ := elements_exact .square _ hs
  exact ⟨hs, hl, hc.trans (by decide +kernel), ((hi hl).right _).mp (by decide +kernel)⟩

end Bracket

end Switchboard
