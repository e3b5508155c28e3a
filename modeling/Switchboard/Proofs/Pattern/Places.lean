import Mathlib.Data.List.Forall2
import Switchboard.Routes.Match

namespace Switchboard

namespace Value

def at? : Value → List Nat → Option Value
  | v, []            => some v
  | list vs, i :: is => vs[i]?.bind (·.at? is)
  | _, _             => none

end Value

namespace Pattern

def at? : Pattern → List Nat → Option Pattern
  | p, []            => some p
  | list ps, i :: is => ps[i]?.bind (·.at? is)
  | _, _             => none

-- A list is accepted position by position, so it is as long as the pattern. Cells accept nothing.
inductive Accepts : Pattern → Value → Prop
  | wildcard                               : Accepts wildcard v
  | name                                   : Accepts (name n) v
  | literal (h : l.accepts v)              : Accepts (literal l) v
  | list (h : List.Forall₂ Accepts ps vs)  : Accepts (list ps) (.list vs)

def isOpen : Pattern → Bool
  | wildcard => true
  | name _   => true
  | _        => false

def isName (p : Pattern) : Bool :=
  p.name?.isSome

mutual

def places (s : Pattern → Bool) : Pattern → List (List Nat)
  | list ps => placesFrom s 0 ps
  | p       => if s p then [[]] else []

def placesFrom (s : Pattern → Bool) : Nat → List Pattern → List (List Nat)
  | _, []      => []
  | i, p :: ps => (p.places s).map (i :: ·) ++ placesFrom s (i + 1) ps

end

variable {l : Literal} {p : Pattern} {ps : List Pattern} {v : Value} {vs xs : List Value}
variable {s : Pattern → Bool} {i : Nat} {is : List Nat}

theorem accepts_of_isOpen (h : p.isOpen) (v : Value) : p.Accepts v := by
  cases p
  case wildcard => exact .wildcard
  case name     => exact .name
  all_goals cases h

theorem literal_accepts_iff : (literal l).Accepts v ↔ l.accepts v :=
  ⟨fun | .literal h => h, .literal⟩

theorem list_accepts_iff :
    (list ps).Accepts (.list vs) ↔ List.Forall₂ Accepts ps vs := by
  constructor
  case mp =>
    intro h
    cases h
    assumption
  case mpr => exact .list

theorem not_list_accepts (h : v.list? = none) : ¬(list ps).Accepts v := by
  intro hv
  cases hv
  cases h

theorem mem_placesFrom_iff :
    is ∈ placesFrom s i ps ↔ ∃ j js p, is = (i + j) :: js ∧ ps[j]? = some p ∧ js ∈ p.places s := by
  induction ps generalizing i
  case nil => simp [placesFrom]
  case cons p ps hi =>
    rw [placesFrom, List.mem_append, hi]
    constructor
    case mp =>
      rintro (h | ⟨j, js, q, rfl, hq, hm⟩)
      case inl =>
        have ⟨js, hm, hj⟩ := List.mem_map.mp h
        exact ⟨0, js, p, hj.symm, rfl, hm⟩
      case inr => exact ⟨j + 1, js, q, by rw [Nat.add_right_comm, Nat.add_assoc], hq, hm⟩
    case mpr =>
      rintro ⟨j, js, q, rfl, hq, hm⟩
      cases j
      case zero =>
        cases hq
        exact .inl (List.mem_map_of_mem hm)
      case succ j =>
        exact .inr ⟨j, js, q, by rw [Nat.add_right_comm, Nat.add_assoc], hq, hm⟩

theorem mem_places_iff :
    is ∈ p.places s ↔ ∃ q, p.at? is = some q ∧ q.list? = none ∧ s q := by
  induction is generalizing p
  case nil =>
    cases p
    case list ps => simp [places, mem_placesFrom_iff, at?, list?]
    all_goals simp [places, at?, list?]
  case cons i is hi =>
    cases p
    case list ps =>
      rw [places, mem_placesFrom_iff, at?]
      constructor
      case mp =>
        rintro ⟨j, js, p, he, hp, hm⟩
        rw [Nat.zero_add, List.cons.injEq] at he
        obtain ⟨rfl, rfl⟩ := he
        rw [hp]
        exact hi.mp hm
      case mpr =>
        rintro ⟨q, ha, hq⟩
        obtain ⟨p, hp, ha⟩ := Option.bind_eq_some_iff.mp ha
        exact ⟨i, is, p, by rw [Nat.zero_add], hp, hi.mpr ⟨q, ha, hq⟩⟩
    all_goals simp [places, at?]

example : (list [name "a", list [name "b", wildcard]]).places isName = [[0], [1, 0]] :=
  rfl

mutual

theorem pairwise_places : ∀ p : Pattern, (p.places s).Pairwise (· < ·)
  | list ps => pairwise_placesFrom 0 ps
  | wildcard | literal _ | name _ | cells _ => by
    rw [places]
    split <;> simp
    all_goals simp

theorem pairwise_placesFrom : ∀ (i : Nat) (ps : List Pattern),
    (placesFrom s i ps).Pairwise (· < ·)
  | _, [] => .nil
  | i, p :: ps => by
    rw [placesFrom, List.pairwise_append]
    refine ⟨?_, pairwise_placesFrom (i + 1) ps, fun is hm js hn => ?_⟩
    · rw [List.pairwise_map]
      exact (pairwise_places p).imp fun h => List.cons_lt_cons_iff.mpr (.inr ⟨rfl, h⟩)
    · have ⟨is, _, hi⟩ := List.mem_map.mp hm
      have ⟨j, js, _, hj, _, _⟩ := mem_placesFrom_iff.mp hn
      rw [← hi, hj]
      exact List.cons_lt_cons_iff.mpr (.inl (by omega))

end

mutual

theorem openness_eq_length_places : ∀ p : Pattern, p.openness = (p.places isOpen).length
  | list ps => by rw [openness, places, opennessAll_eq_length_placesFrom 0 ps]
  | wildcard | literal _ | name _ | cells _ => rfl

theorem opennessAll_eq_length_placesFrom : ∀ (i : Nat) (ps : List Pattern),
    opennessAll ps = (placesFrom isOpen i ps).length
  | _, [] => rfl
  | i, p :: ps => by
    rw [opennessAll, placesFrom, List.length_append, List.length_map, openness_eq_length_places p,
      opennessAll_eq_length_placesFrom (i + 1) ps]

end

mutual

theorem isSome_bind?_iff : ∀ (p : Pattern) (v : Value), (p.bind? v).isSome ↔ p.Accepts v
  | wildcard, v => by simp [bind?, Accepts.wildcard]
  | name n, v => by simp [bind?, Accepts.name]
  | literal l, v => by
    rw [bind?]
    constructor
    case mp =>
      intro h
      by_cases hl : l.accepts v
      case pos => exact .literal hl
      case neg => simp [hl] at h
    case mpr =>
      intro h
      cases h
      case literal hl => simp [hl]
  | list ps, .list vs => by
    rw [bind?, isSome_bindAll?_iff ps vs]
    exact ⟨.list, fun | .list h => h⟩
  | list ps, .null | list ps, .bool _ | list ps, .int _ | list ps, .float _ | list ps, .text _
  | list ps, .object _ => by
    simp only [bind?, Option.isSome_none, Bool.false_eq_true, false_iff]
    exact nofun
  | cells ps, v => by
    simp only [bind?, Option.isSome_none, Bool.false_eq_true, false_iff]
    exact nofun

theorem isSome_bindAll?_iff : ∀ (ps : List Pattern) (vs : List Value),
    (bindAll? ps vs).isSome ↔ List.Forall₂ Accepts ps vs
  | [], [] => by simp [bindAll?]
  | [], _ :: _ => by simp [bindAll?]
  | _ :: _, [] => by simp [bindAll?]
  | p :: ps, v :: vs => by
    rw [bindAll?, List.forall₂_cons, ← isSome_bind?_iff p v, ← isSome_bindAll?_iff ps vs]
    cases p.bind? v <;> cases bindAll? ps vs <;> simp

end

theorem bindAll?_cons_eq_some_iff :
    bindAll? (p :: ps) (v :: vs) = some xs ↔
      ∃ ys zs, p.bind? v = some ys ∧ bindAll? ps vs = some zs ∧ xs = ys ++ zs := by
  rw [bindAll?]
  cases p.bind? v <;> cases bindAll? ps vs <;> simp [eq_comm]

mutual

-- The arity also counts the names in cells, but a pattern with cells accepts nothing.
theorem length_places_of_accepts : ∀ (p : Pattern) {v : Value}, p.Accepts v →
    (p.places isName).length = p.arity
  | wildcard, _, _ | literal _, _, _ | name _, _, _ => rfl
  | list ps, _, .list h => length_placesFrom_of_forall₂ 0 ps h

theorem length_placesFrom_of_forall₂ : ∀ (i : Nat) (ps : List Pattern) {vs : List Value},
    List.Forall₂ Accepts ps vs → (placesFrom isName i ps).length = arityAll ps
  | _, [], _, _ => rfl
  | i, p :: ps, _, .cons h hs => by
    rw [placesFrom, List.length_append, List.length_map, length_places_of_accepts p h,
      length_placesFrom_of_forall₂ (i + 1) ps hs, arityAll]

end

mutual

-- What is bound is what stands at the places of the names, and nothing else.
theorem map_some_of_bind? : ∀ (p : Pattern) (v : Value) {xs : List Value},
    p.bind? v = some xs → xs.map some = (p.places isName).map v.at?
  | wildcard, v, xs, h => by
    cases h
    rfl
  | name n, v, xs, h => by
    cases h
    rfl
  | literal l, v, xs, h => by
    rw [bind?, Option.ite_none_right_eq_some] at h
    cases h.right
    rfl
  | list ps, v, xs, h => by
    cases v
    case list vs => exact map_some_of_bindAll? ps [] vs h
    all_goals cases h
  | cells ps, v, xs, h => by
    cases h

theorem map_some_of_bindAll? : ∀ (ps : List Pattern) (us vs : List Value) {xs : List Value},
    bindAll? ps vs = some xs →
      xs.map some = (placesFrom isName us.length ps).map (Value.list (us ++ vs)).at?
  | [], us, vs, xs, h => by
    cases vs <;> cases h
    rfl
  | p :: ps, us, [], xs, h => by
    cases h
  | p :: ps, us, v :: vs, xs, h => by
    have ⟨ys, zs, hy, hz, hx⟩ := bindAll?_cons_eq_some_iff.mp h
    have hp := map_some_of_bind? p v hy
    have hs := map_some_of_bindAll? ps (us ++ [v]) vs hz
    have hv : (Value.list (us ++ v :: vs)).at? ∘ (us.length :: ·) = v.at? := by
      funext is
      simp [Value.at?]
    rw [List.length_append, List.length_singleton, List.append_assoc, List.singleton_append] at hs
    rw [hx, List.map_append, hp, hs, placesFrom, List.map_append, List.map_map, hv]

end

end Pattern

end Switchboard
