import Mathlib.Logic.Function.Iterate
import Switchboard.Proofs.Pattern.StrictReading
import Switchboard.Proofs.Routes.Selection
import Switchboard.Proofs.Scope.Resolution

namespace Switchboard

open Scope (quoted)

def Pattern.enclosed (key : String) : String :=
  "[" ++ key ++ "]"

def Value.enclosed (v : Value) : Value :=
  .list [v]

theorem Literal.not_isEmptyScalar_of_accepts {t : String} {v : Value} (ha : (ofText t).accepts v)
    (he : ¬(t = "" ∧ v = .text "")) : v.isEmptyScalar = false := by
  cases v
  case null   => cases ha
  case text s =>
    have hs : s = t := eq_of_beq ha
    simp_all [Value.isEmptyScalar]
  all_goals rfl

namespace Pattern

variable {p : Pattern} {key t : String} {v : Value} {d : Nat} {l : Literal}

theorem derives_enclosed (h : Derives key.toList p) : Derives (enclosed key).toList (list [p]) := by
  have hp : Padded Derives key.toList p := .of_trim (by rwa [h.trim_eq])
  have he : Derives (Bracket.square.opening :: Bracket.square.separator.intercalate [key.toList] ++
      [Bracket.square.closing]) (.ofBracket .square [p]) :=
    .bracketed (List.cons_ne_nil _ _) (.cons hp .nil) (fun _ _ => nofun)
  simpa [enclosed, Bracket.opening, Bracket.closing, ofBracket] using he

theorem derives_iterate_enclosed (h : Derives key.toList p) :
    Derives (enclosed^[d] key).toList ((fun p => list [p])^[d] p) := by
  induction d
  case zero => exact h
  case succ d hi =>
    rw [Function.iterate_succ_apply', Function.iterate_succ_apply']
    exact derives_enclosed hi

theorem ofString_iterate_enclosed (ht : '"' ∉ t.toList) :
    ofString (enclosed^[d] (quoted t)) = (fun p => list [p])^[d] (literal (.ofText t)) := by
  have h : Derives (quoted t).toList (literal (.ofText t)) := by
    rw [Scope.toList_quoted]
    simpa using Derives.literal ht
  exact (accepted_of_derives (derives_iterate_enclosed h)).right

theorem accepts_iterate_enclosed :
    ((fun p => list [p])^[d] p).Accepts (Value.enclosed^[d] v) ↔ p.Accepts v := by
  induction d
  case zero => rfl
  case succ d hi =>
    rw [Function.iterate_succ_apply', Function.iterate_succ_apply', Value.enclosed,
      list_accepts_iff, List.forall₂_cons, hi]
    simp

end Pattern

namespace Routes

variable {α : Type} {registry : Registry} {key t : String} {f : α} {v : Value} {vs : List Value}
variable {l : Literal} {ps : List Pattern} {d : Nat}

def Chosen (registry : Registry) (key : String) (f : α) (v : Value) : Prop :=
  ∃ args, (ofList [(key, f)]).matchIn registry v = .route (.make key f) args

theorem routes_singleton : (ofList [(key, f)]).routes = [.make key f] :=
  rfl

theorem competing_singleton (hw : (Pattern.ofString key).isWildcard = false) :
    (ofList [(key, f)]).competing = [.make key f] := by
  have hf : (Route.make key f).isFallback = false := hw
  simp [competing, routes_singleton, hf]

theorem fallback_singleton (hw : (Pattern.ofString key).isWildcard = false) :
    (ofList [(key, f)]).fallback = .unanswered := by
  have hk : (ofList [(key, f)]).keys = [key] := rfl
  have hf : (ofList [(key, f)]).fallback? = none := by
    rw [fallback?_eq_none_iff, hk, List.forall_mem_singleton, ← Pattern.isWildcard_ofString, hw]
    exact Bool.false_ne_true
  rw [fallback, hf]

theorem chosen_list_iff (hp : Pattern.ofString key = .list ps) :
    Chosen registry key f (.list vs) ↔ (Pattern.list ps).Accepts (.list vs) := by
  have hw : (Pattern.ofString key).isWildcard = false := by rw [hp]; rfl
  have hc : Candidate.ofRoute? vs (Route.make key f) =
      (Pattern.bindAll? ps vs).map (⟨.make key f, Pattern.opennessAll ps, ·⟩) := by
    simp only [Candidate.ofRoute?, Route.make, hp]
  rw [Chosen, matchIn, matchList_eq, routes_singleton, fallback_singleton hw,
    Pattern.list_accepts_iff, ← Pattern.isSome_bindAll?_iff]
  cases hb : Pattern.bindAll? ps vs <;> simp [hc, hb, Candidate.best?]

theorem chosen_literal_iff (hp : Pattern.ofString key = .literal l) (hl : v.list? = none)
    (ho : v.object? = none) :
    Chosen registry key f v ↔ v.isEmptyScalar = false ∧ l.accepts v := by
  have hw : (Pattern.ofString key).isWildcard = false := by rw [hp]; rfl
  have hs : (Route.make key f).suits registry v ↔ v.isEmptyScalar = false ∧ l.accepts v := by
    have hs : (Route.make key f).suits registry v = (Route.make key f).suitsScalar v := by
      cases v <;> first | rfl | cases ho
    have hm : (Route.make key f).pattern = .literal l := hp
    simp [hs, Route.suitsScalar_iff, hm, Pattern.literal?]
  rw [Chosen, matchIn_eq_first hl, first, competing_singleton hw, fallback_singleton hw, ← hs]
  cases hc : (Route.make key f).suits registry v <;> simp [hc]

theorem chosen_iterate_enclosed_iff (ht : '"' ∉ t.toList) (hd : 0 < d) :
    Chosen registry (Pattern.enclosed^[d] (quoted t)) f (Value.enclosed^[d] v) ↔
      (Literal.ofText t).accepts v := by
  obtain ⟨d, rfl⟩ := Nat.exists_eq_add_one_of_ne_zero hd.ne'
  have hp : Pattern.ofString (Pattern.enclosed^[d + 1] (quoted t)) =
      .list [(fun p => .list [p])^[d] (.literal (.ofText t))] := by
    rw [Pattern.ofString_iterate_enclosed ht, Function.iterate_succ_apply']
  have hv : Value.enclosed^[d + 1] v = .list [Value.enclosed^[d] v] :=
    Function.iterate_succ_apply' ..
  rw [hv, chosen_list_iff hp, Pattern.list_accepts_iff, List.forall₂_cons,
    Pattern.accepts_iterate_enclosed, Pattern.literal_accepts_iff]
  exact and_iff_left .nil

-- The empty text is the only value to which lists make a difference.
theorem chosen_iff_enclosed (ht : '"' ∉ t.toList) (hd : 0 < d) (hl : v.list? = none)
    (ho : v.object? = none) :
    (¬(t = "" ∧ v = .text "") →
      (Chosen registry (quoted t) f v ↔
        Chosen registry (Pattern.enclosed^[d] (quoted t)) f (Value.enclosed^[d] v))) ∧
    (t = "" ∧ v = .text "" →
      (ofList [(quoted t, f)]).matchIn registry v = (ofList [(quoted t, f)]).fallback ∧
        Chosen registry (Pattern.enclosed^[d] (quoted t)) f (Value.enclosed^[d] v)) := by
  rw [chosen_iterate_enclosed_iff ht hd]
  constructor
  case left =>
    intro he
    rw [chosen_literal_iff (Scope.ofString_quoted t) hl ho, and_iff_right_iff_imp]
    exact fun ha => Literal.not_isEmptyScalar_of_accepts ha he
  case right =>
    rintro ⟨rfl, rfl⟩
    exact ⟨rfl, rfl⟩

-- The text of the literal may look like two lists.
theorem chosen_iff_enclosed_brackets :
    '"' ∉ "a], [b".toList ∧ 0 < 2 ∧ (Value.text "a], [b").list? = none ∧
    (Value.text "a], [b").object? = none ∧
    (Chosen .empty "\"a], [b\"" 0 (.text "a], [b") ↔
      Chosen .empty "[[\"a], [b\"]]" 0 (.list [.list [.text "a], [b"]])) := by
  have ht : '"' ∉ "a], [b".toList := by decide
  have hb : quoted "a], [b" = "\"a], [b\"" := by decide
  have hk : Pattern.enclosed^[2] (quoted "a], [b") = "[[\"a], [b\"]]" := by decide
  rw [← hb, ← hk]
  refine ⟨ht, Nat.two_pos, rfl, rfl, ?_⟩
  exact (chosen_iff_enclosed ht Nat.two_pos rfl rfl).left fun h => absurd h.left (by decide)

end Routes

end Switchboard
