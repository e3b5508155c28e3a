import Switchboard.Pattern.Literal
import Switchboard.Text.Blank
import Switchboard.Proofs.Decimal.Numerals

namespace Switchboard

variable {s : String} {i : Int64} {c : Char}

open Decimal (Denotes)
open Decimal.Regular (numeral letters)

namespace Constant

theorem int64?_eq_some_iff :
    (Decimal.integer? s.toList).bind Word.ofInt? = some i ↔ Denotes s.toList i.toInt := by
  simp [Option.bind_eq_some_iff, Decimal.integer?_eq_some_iff, Word.ofInt?_eq_some_iff]

theorem ofText_eq (s : String) :
    ofText s =
      match (Decimal.integer? s.toList).bind Word.ofInt? with
      | some i => .int i
      | none   => (Decimal.Numeral.read? s.toList).elim (.text s) (.float ·.toBinary64) := by
  cases hi : (Decimal.integer? s.toList).bind Word.ofInt?
  case some i => simp only [ofText, hi]
  case none =>
    by_cases hl : Decimal.looksNumeric s.toList
    case pos =>
      simp only [ofText, hi, if_pos hl, Decimal.binary64?_of_looksNumeric hl]
      cases Decimal.Numeral.read? s.toList <;> rfl
    case neg =>
      have hr : Decimal.Numeral.read? s.toList = none := by
        rw [← Option.not_isSome_iff_eq_none, Decimal.Numeral.isSome_read?_iff]
        exact fun hm => hl (Decimal.looksNumeric_of_mem_numeral hm)
      simp only [ofText, hi, if_neg hl, hr, Option.elim_none]

theorem ofText_eq_int_iff : ofText s = .int i ↔ Denotes s.toList i.toInt := by
  rw [← int64?_eq_some_iff, ofText_eq]
  split
  case h_1 j hj => simp [hj]
  case h_2 hn   => cases Decimal.Numeral.read? s.toList <;> simp [hn]

theorem ofText_eq_float_iff :
    (∃ x, ofText s = .float x) ↔
      (¬∃ i : Int64, Denotes s.toList i.toInt) ∧ s.toList ∈ numeral.matches' := by
  simp only [← int64?_eq_some_iff, ← Decimal.Numeral.isSome_read?_iff, ofText_eq]
  split
  case h_1 j hj => simp [hj]
  case h_2 hn   => cases Decimal.Numeral.read? s.toList <;> simp [hn]

theorem ofText_eq_text_iff :
    ofText s = .text s ↔
      (¬∃ i : Int64, Denotes s.toList i.toInt) ∧ s.toList ∉ numeral.matches' := by
  simp only [← int64?_eq_some_iff, ← Decimal.Numeral.isSome_read?_iff, ofText_eq]
  split
  case h_1 j hj => simp [hj]
  case h_2 hn   => cases Decimal.Numeral.read? s.toList <;> simp [hn]

theorem ofText_eq_text_of_notMem (h : s.toList ∉ numeral.matches') : ofText s = .text s := by
  apply ofText_eq_text_iff.mpr
  constructor
  case left =>
    intro ⟨i, hi⟩
    exact h (Decimal.mem_numeral_of_mem_integer (Decimal.mem_integer.mpr ⟨_, hi⟩))
  case right => exact h

theorem ofText_eq_text_of_mem {p : Char → Bool} (hp : (letters numeral).any p = false)
    (hc : c ∈ s.toList) (h : p c) : ofText s = .text s := by
  apply ofText_eq_text_of_notMem
  intro hm
  exact List.any_eq_false.mp hp c (Decimal.mem_letters hm c hc) h

end Constant

namespace Literal

theorem ofText_classified (s : String) :
    (ofText s).source = s ∧
    (∀ i, (ofText s).constant = .int i ↔ Denotes s.toList i.toInt) ∧
    ((∃ x, (ofText s).constant = .float x) ↔
      (¬∃ i : Int64, Denotes s.toList i.toInt) ∧ s.toList ∈ numeral.matches') ∧
    ((ofText s).constant = .text s ↔
      (¬∃ i : Int64, Denotes s.toList i.toInt) ∧ s.toList ∉ numeral.matches') ∧
    (∀ c ∈ s.toList, Text.isBlank c ∨ c = '_' → (ofText s).constant = .text s) ∧
    (∀ w ∈ ["nan", "inf", "infinity"],
      (Decimal.spanSign s.toList).2.map Char.toLower = w.toList →
        (ofText s).constant = .text s) := by
  refine ⟨rfl, fun i => Constant.ofText_eq_int_iff, Constant.ofText_eq_float_iff,
    Constant.ofText_eq_text_iff, ?_, ?_⟩
  case refine_1 =>
    intro c hc hb
    have hp : (letters numeral).any (fun c => Text.isBlank c || c == '_') = false := by decide
    exact Constant.ofText_eq_text_of_mem hp hc (by simpa using hb)
  case refine_2 =>
    -- Each of the three is spelled with an `n`, which may be a capital.
    intro w hw hs
    have hn : ["nan", "inf", "infinity"].all fun w => w.toList.contains 'n' := by decide
    have hp : (letters numeral).any (fun c => c.toLower == 'n') = false := by decide
    have hm : 'n' ∈ w.toList := List.contains_iff_mem.mp (List.all_eq_true.mp hn w hw)
    have ⟨c, hc, hl⟩ := List.mem_map.mp (hs ▸ hm)
    exact Constant.ofText_eq_text_of_mem hp (Decimal.suffix_spanSign.mem hc) (beq_iff_eq.mpr hl)

-- Neither capitals and signs nor marks between digits make a number of what is none.
theorem ofText_classified_capitals :
    ('_' ∈ "1_000".toList ∧ (ofText "1_000").constant = .text "1_000") ∧
      "infinity" ∈ ["nan", "inf", "infinity"] ∧
      (Decimal.spanSign "-InFinity".toList).2.map Char.toLower = "infinity".toList ∧
      (ofText "-InFinity").constant = .text "-InFinity" := by
  have hm : '_' ∈ "1_000".toList := by decide
  have hw : "infinity" ∈ ["nan", "inf", "infinity"] := by decide
  have hs : (Decimal.spanSign "-InFinity".toList).2.map Char.toLower = "infinity".toList := by
    decide
  have ⟨_, _, _, _, hb, _⟩ := ofText_classified "1_000"
  have ⟨_, _, _, _, _, hn⟩ := ofText_classified "-InFinity"
  exact ⟨⟨hm, hb '_' hm (.inr rfl)⟩, hw, hs, hn "infinity" hw hs⟩

end Literal

end Switchboard
