import Mathlib.Data.List.Find
import Mathlib.Data.List.Forall2
import Switchboard.Proofs.Routes.First
import Switchboard.Proofs.Routes.History
import Switchboard.Scope

namespace Switchboard

namespace Scope

def quoted (n : String) : String :=
  "\"" ++ n ++ "\""

def bindings : List String → List Value → History Value
  | [], _       => []
  | n :: ns, vs =>
    if n = "_" then bindings ns vs.tail else (quoted n, vs.headD .null) :: bindings ns vs.tail

-- What no name takes: the values in the places of wildcards, and those after all names.
def residual (names : List String) (values : List Value) : List Value :=
  (names.idxsOf "_").map (values.getD · .null) ++ values.drop names.length

structure IsLast (names : List String) (n : String) (i : Nat) : Prop where
  here  : names[i]? = some n
  after : ∀ j, i < j → names[j]? ≠ some n

inductive Resolves (names : List String) (values : List Value) : String → Value → Prop
  | bound (hn : n ≠ "") (hw : n ≠ "_") (hi : IsLast names n i) :
    Resolves names values n (values.getD i .null)
  | residual (hn : n = "" ∨ n = "_" ∨ n ∉ names) :
    Resolves names values n (.list (residual names values))

variable {names ns requested : List String} {values vs : List Value} {n m : String} {i : Nat}
variable {rs : Routes Value} {rest : List Value} {h : History Value} {r : Route Value} {v : Value}

theorem toList_quoted : (quoted n).toList = '"' :: n.toList ++ ['"'] := by
  simp [quoted]

theorem quoted_inj : quoted m = quoted n ↔ m = n := by
  simp [← String.toList_inj, toList_quoted]

-- Quotes, brackets and blanks inside the name are all kept, since its outermost quotes are found
-- first.
theorem ofString_quoted (n : String) : Pattern.ofString (quoted n) = .literal (.ofText n) := by
  rw [Pattern.ofString, toList_quoted, Pattern.ofChars_eq,
    Text.trim_cons_append_singleton (by decide) (by decide), Outline.ofTrimmed_quoted]
  simp

theorem isLast_cons_zero : IsLast (m :: ns) n 0 ↔ m = n ∧ n ∉ ns := by
  constructor
  case mp =>
    intro h
    refine ⟨by simpa using h.here, fun hm => ?_⟩
    have ⟨j, hj⟩ := List.mem_iff_getElem?.mp hm
    exact h.after (j + 1) (by simp) (by simpa using hj)
  case mpr =>
    intro ⟨he, hm⟩
    refine ⟨by simp [he], fun j hj hn => hm ?_⟩
    cases j
    case zero   => cases hj
    case succ j => exact List.mem_iff_getElem?.mpr ⟨j, by simpa using hn⟩

theorem isLast_cons_succ : IsLast (m :: ns) n (i + 1) ↔ IsLast ns n i := by
  constructor
  case mp =>
    intro h
    refine ⟨by simpa using h.here, fun j hj hn => ?_⟩
    exact h.after (j + 1) (by omega) (by simpa using hn)
  case mpr =>
    intro h
    refine ⟨by simpa using h.here, fun j hj hn => ?_⟩
    cases j
    case zero   => cases hj
    case succ j => exact h.after j (by omega) (by simpa using hn)

theorem exists_isLast (h : n ∈ names) : ∃ i, IsLast names n i := by
  induction names
  case nil => cases h
  case cons m ns hi =>
    by_cases hn : n ∈ ns
    case pos =>
      have ⟨i, hl⟩ := hi hn
      exact ⟨i + 1, isLast_cons_succ.mpr hl⟩
    case neg =>
      have hm := (List.mem_cons.mp h).resolve_right hn
      exact ⟨0, isLast_cons_zero.mpr ⟨hm.symm, hn⟩⟩

theorem mem_bindings {e : String × Value} (h : e ∈ bindings names values) :
    ∃ n ∈ names, n ≠ "_" ∧ e.1 = quoted n := by
  induction names generalizing values
  case nil => cases h
  case cons m ns hi =>
    rw [bindings] at h
    split at h
    case isTrue =>
      have ⟨n, hn, he⟩ := hi h
      exact ⟨n, List.mem_cons_of_mem _ hn, he⟩
    case isFalse hm =>
      cases h
      case head   => exact ⟨m, List.mem_cons_self, hm, rfl⟩
      case tail h =>
        have ⟨n, hn, he⟩ := hi h
        exact ⟨n, List.mem_cons_of_mem _ hn, he⟩

theorem latest?_bindings_eq_none (hn : n = "_" ∨ n ∉ names) :
    (bindings names values).latest? (quoted n) = none := by
  refine History.latest?_eq_none fun hm => ?_
  have ⟨e, he, hk⟩ := List.mem_map.mp (History.mem_keys_iff.mp hm)
  have ⟨m, hm, hw, hq⟩ := mem_bindings he
  have hmn := quoted_inj.mp (hq.symm.trans hk)
  rcases hn with hn | hn
  · exact hw (hmn.trans hn)
  · exact hn (hmn ▸ hm)

-- Each binding hides those before it, so that the last one is found.
theorem latest?_bindings_of_isLast (hw : n ≠ "_") (hi : IsLast names n i) :
    (bindings names values).latest? (quoted n) = some (values.getD i .null) := by
  induction names generalizing values i
  case nil => simpa using hi.here
  case cons m ns ih =>
    cases i
    case zero =>
      have ⟨hm, hn⟩ := isLast_cons_zero.mp hi
      have hl : (bindings ns values.tail).latest? (quoted n) = none :=
        latest?_bindings_eq_none (.inr hn)
      simp [bindings, hm, hw, History.latest?_cons, hl, List.head?_eq_getElem?]
    case succ i =>
      have hl : (bindings ns values.tail).latest? (quoted n) = _ := ih (isLast_cons_succ.mp hi)
      rw [bindings]
      split
      case isTrue  => simp [hl]
      case isFalse => simp [History.latest?_cons, hl]

theorem follows_bindNames (hf : rs.Follows h) :
    (bindNames rs rest names values).1.Follows (h ++ bindings names values) := by
  induction names generalizing rs rest values h
  case nil => simpa [bindNames, bindings] using hf
  case cons m ns hi =>
    rw [bindNames, bindings]
    split
    case isTrue  => exact hi hf
    case isFalse =>
      rw [List.append_cons]
      exact hi hf.insert

theorem residual_cons :
    residual (m :: ns) values =
      if m = "_" then values.headD .null :: residual ns values.tail
      else residual ns values.tail := by
  have hs : ns.idxsOf "_" 1 = (ns.idxsOf "_").map (· + 1) := List.idxsOf_start
  by_cases hm : m = "_" <;>
    simp [residual, List.idxsOf_cons, hm, hs, List.head?_eq_getElem?, Function.comp_def]

theorem rest_bindNames : (bindNames rs rest names values).2 = rest ++ residual names values := by
  induction names generalizing rs rest values
  case nil => simp [bindNames, residual]
  case cons m ns hi =>
    rw [bindNames, residual_cons]
    split
    case isTrue  => simp [hi]
    case isFalse => exact hi

theorem follows_routes (names : List String) (values : List Value) :
    (ofNames names values).routes.Follows
      (bindings names values ++ [("_", .list (residual names values))]) := by
  have hr : (bindNames .empty [] names values).2 = residual names values := rest_bindNames
  have hf : (bindNames .empty [] names values).1.Follows (bindings names values) :=
    follows_bindNames .empty
  rw [← hr]
  exact hf.insert

theorem ne_quoted_underscore : "_" ≠ quoted n := by
  intro h
  simpa [toList_quoted] using congrArg (·.toList.head?) h

theorem key_of_mem_routes (h : r ∈ (ofNames names values).routes.routes) :
    r.key = "_" ∨ ∃ m, r.key = quoted m := by
  have hm := (follows_routes names values).keys ▸ Routes.mem_keys h
  have ⟨e, he, hk⟩ := List.mem_map.mp (History.mem_keys_iff.mp hm)
  rcases List.mem_append.mp he with he | he
  case inl =>
    have ⟨m, _, _, hq⟩ := mem_bindings he
    exact .inr ⟨m, hk.symm.trans hq⟩
  case inr =>
    cases List.mem_singleton.mp he
    exact .inl hk.symm

theorem suitsScalar_text (hr : r ∈ (ofNames names values).routes.routes) (hn : n ≠ "") :
    r.suitsScalar (.text n) = (r.key == quoted n) := by
  rw [Bool.eq_iff_iff, Route.suitsScalar_iff, beq_iff_eq, r.pattern_eq]
  rcases key_of_mem_routes hr with hk | ⟨m, hk⟩
  case inl =>
    have hw := Pattern.eq_wildcard_of_isWildcard
      ((Pattern.isWildcard_ofString "_").trans Text.spellsWildcard_underscore)
    simp [hk, hw, Pattern.literal?, ne_quoted_underscore]
  case inr =>
    have ha : (Literal.ofText m).accepts (.text n) ↔ m = n := beq_iff_eq.trans eq_comm
    simp [hk, ofString_quoted, quoted_inj, Pattern.literal?, ha, Value.isEmptyScalar, hn]

theorem find?_text (hn : n ≠ "") :
    (ofNames names values).routes.competing.find? (Route.suitsScalar (.text n)) =
      (ofNames names values).routes.get? (quoted n) := by
  rw [Routes.find?_competing_of_imp fun _ => Route.isFallback_of_suitsScalar, Routes.get?]
  exact List.find?_congr fun _ hr => suitsScalar_text hr hn

theorem fallback_routes :
    (ofNames names values).routes.fallback =
      .route (.make "_" (.list (residual names values))) [] := by
  have hg := (follows_routes names values).get? "_"
  rw [History.latest?_concat, if_pos rfl, Option.map_some] at hg
  simp [Routes.fallback, Routes.fallback?, hg]

theorem get?_routes_quoted :
    (ofNames names values).routes.get? (quoted n) =
      ((bindings names values).latest? (quoted n)).map (Route.make (quoted n)) := by
  rw [(follows_routes names values).get?, History.latest?_concat, if_neg ne_quoted_underscore]

theorem resolve_of_isLast (hn : n ≠ "") (hw : n ≠ "_") (hi : IsLast names n i) :
    (ofNames names values).resolve n = values.getD i .null := by
  have hf : (ofNames names values).routes.competing.find? (Route.suitsScalar (.text n)) =
      some (.make (quoted n) (values.getD i .null)) := by
    rw [find?_text hn, get?_routes_quoted, latest?_bindings_of_isLast hw hi, Option.map_some]
  rw [resolve, Routes.matchScalar_eq_first, Routes.first_eq_route hf]
  rfl

theorem resolve_of_not_bound (hn : n = "" ∨ n = "_" ∨ n ∉ names) :
    (ofNames names values).resolve n = .list (residual names values) := by
  have hf : ∀ r ∈ (ofNames names values).routes.competing, ¬r.suitsScalar (.text n) := by
    by_cases he : n = ""
    case pos => simp [he, Route.suitsScalar, Value.isEmptyScalar]
    case neg =>
      have hl : (bindings names values).latest? (quoted n) = none :=
        latest?_bindings_eq_none (hn.resolve_left he)
      rw [← List.find?_eq_none, find?_text he, get?_routes_quoted, hl, Option.map_none]
  rw [resolve, Routes.matchScalar_eq_first, Routes.first_eq_fallback hf, fallback_routes]
  rfl

theorem resolves_resolve (names : List String) (values : List Value) (n : String) :
    Resolves names values n ((ofNames names values).resolve n) := by
  by_cases hn : n = "" ∨ n = "_" ∨ n ∉ names
  case pos =>
    rw [resolve_of_not_bound hn]
    exact .residual hn
  case neg =>
    simp only [not_or, not_not] at hn
    have ⟨hn, hw, hm⟩ := hn
    have ⟨i, hi⟩ := exists_isLast hm
    rw [resolve_of_isLast hn hw hi]
    exact .bound hn hw hi

theorem resolve_eq_iff : (ofNames names values).resolve n = v ↔ Resolves names values n v := by
  constructor
  case mp =>
    intro h
    exact h ▸ resolves_resolve names values n
  case mpr =>
    intro h
    cases h
    case bound hn hw hi => exact resolve_of_isLast hn hw hi
    case residual hn    => exact resolve_of_not_bound hn

-- Each requested name is given the value at its last place among the names, whatever characters it
-- is made of, and whatever is no name of the scope is given the residual list.
theorem resolveAll_eq_iff_resolves :
    (ofNames names values).resolveAll requested = vs ↔
      List.Forall₂ (Resolves names values) requested vs := by
  rw [resolveAll, ← List.forall₂_eq_eq_eq, List.forall₂_map_left_iff]
  simp only [resolve_eq_iff]

end Scope

end Switchboard
