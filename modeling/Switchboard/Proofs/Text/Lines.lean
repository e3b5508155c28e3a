import Switchboard.Command.Documents

namespace Switchboard.Text

-- A line is ended by a line feed, or by a carriage return and a line feed. The last one does not
-- need to be ended, but then it is not empty and keeps its carriage return.
inductive Lines : List Char → List (List Char) → Prop
  | nil : Lines [] []
  | last (hn : '\n' ∉ l) (he : l ≠ []) : Lines l [l]
  | ended (hn : '\n' ∉ l) (hr : l.getLast? ≠ some '\r') (h : Lines cs ls) :
    Lines (l ++ '\n' :: cs) (l :: ls)
  | returned (hn : '\n' ∉ l) (h : Lines cs ls) : Lines (l ++ '\r' :: '\n' :: cs) (l :: ls)

variable {l cs : List Char} {ls : List (List Char)}

theorem lines_of_not_mem (hn : '\n' ∉ l) (he : l ≠ []) : lines l = [l] := by
  have hs : l.splitOn '\n' = [l] := List.splitOnP_eq_singleton (by grind)
  rw [lines, hs]
  cases l
  case nil  => exact absurd rfl he
  case cons => rfl

theorem lines_append_cons (hn : '\n' ∉ l) :
    lines (l ++ '\n' :: cs) =
      (if l.getLast? = some '\r' then l.dropLast else l) :: lines cs := by
  have hs : (l ++ '\n' :: cs).splitOn '\n' = l :: cs.splitOn '\n' :=
    List.splitOn_append_cons_self_of_not_mem hn cs
  rw [lines, lines, hs]
  cases hp : cs.splitOn '\n'
  case nil       => exact absurd hp (List.splitOn_ne_nil '\n' cs)
  case cons p ps =>
    rw [List.dropLast_cons_of_ne_nil (List.cons_ne_nil p ps), List.getLast?_cons_cons,
      List.map_cons]
    split <;> rfl

theorem Lines.lines_eq (h : Lines cs ls) : lines cs = ls := by
  induction h
  case nil => rfl
  case last hn he => exact lines_of_not_mem hn he
  case ended hn hr _ hi => rw [lines_append_cons hn, if_neg hr, hi]
  case returned l cs ls hn _ hi =>
    have hr : '\n' ∉ l ++ ['\r'] := by simpa using hn
    rw [List.append_cons, lines_append_cons hr, hi]
    simp

-- The first line feed ends the first line, and what follows it is shorter.
theorem lines_lines (cs : List Char) : Lines cs (lines cs) := by
  by_cases hm : '\n' ∈ cs
  case neg =>
    by_cases he : cs = []
    case pos => exact he ▸ .nil
    case neg => exact lines_of_not_mem hm he ▸ .last hm he
  case pos =>
    have ⟨l, ds, hc, hn⟩ := List.eq_append_cons_of_mem hm
    have hi := lines_lines ds
    rw [hc, lines_append_cons hn]
    by_cases hr : l.getLast? = some '\r'
    case neg =>
      rw [if_neg hr]
      exact .ended hn hr hi
    case pos =>
      have ⟨m, hl⟩ := List.getLast?_eq_some_iff.mp hr
      subst hl
      rw [if_pos hr, List.dropLast_concat, List.append_assoc]
      exact .returned (fun h => hn (List.mem_append_left _ h)) hi
termination_by cs.length
decreasing_by
  rw [hc, List.length_append, List.length_cons]
  omega

theorem lines_eq_iff : lines cs = ls ↔ Lines cs ls := by
  constructor
  case mp =>
    rintro rfl
    exact lines_lines cs
  case mpr => exact Lines.lines_eq

end Switchboard.Text
