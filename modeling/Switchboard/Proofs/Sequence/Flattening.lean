import Mathlib.Data.List.Sort
import Switchboard.Sequence
import Switchboard.Proofs.Pattern.Places

namespace Switchboard

namespace Value

-- `vs` are the values at those places in `v` where there is no list, from left to right.
structure Leaves (v : Value) (places : List (List Nat)) (vs : List Value) : Prop where
  sorted  : places.Pairwise (· < ·)
  mem_iff : ∀ is, is ∈ places ↔ ∃ w, v.at? is = some w ∧ ¬w.isList
  at_eq   : vs.map some = places.map v.at?

def behind : List Nat → List Nat
  | []      => []
  | i :: is => (i + 1) :: is

variable {u v : Value} {us vs ws : List Value} {ps qs : List (List Nat)} {i : Nat}
variable {is js : List Nat}

theorem at?_behind (h : is ≠ []) : (list (v :: vs)).at? (behind is) = (list vs).at? is := by
  cases is
  case nil  => cases h rfl
  case cons => rfl

theorem behind_ne_nil (h : is ≠ []) : behind is ≠ [] := by
  cases is
  case nil  => cases h rfl
  case cons => exact List.cons_ne_nil _ _

theorem behind_eq_cons_iff : behind js = i :: is ↔ ∃ j, js = j :: is ∧ i = j + 1 := by
  cases js <;> simp [behind, and_comm, eq_comm]

theorem behind_lt_behind (hi : is ≠ []) (h : is < js) : behind is < behind js := by
  cases is <;> cases js
  case cons.cons =>
    rw [List.cons_lt_cons_iff] at h
    exact List.cons_lt_cons_iff.mpr (h.imp Nat.succ_lt_succ (And.imp_left (congrArg _)))
  case cons.nil => cases h
  all_goals cases hi rfl

namespace Leaves

theorem of_not_isList (h : ¬v.isList) : v.Leaves [[]] [v] where
  sorted     := List.pairwise_singleton _ _
  mem_iff is := by
    cases is
    case nil  => simp [at?, h]
    case cons => cases v <;> simp_all [at?, isList]
  at_eq      := by simp [at?]

theorem nil : (list []).Leaves [] [] where
  sorted     := .nil
  mem_iff is := by cases is <;> simp [at?, isList]
  at_eq      := rfl

theorem ne_nil (h : (list vs).Leaves ps ws) (hm : is ∈ ps) : is ≠ [] := by
  intro hn
  subst hn
  have ⟨w, hw, hl⟩ := (h.mem_iff []).mp hm
  cases hw
  exact hl rfl

theorem cons (h : v.Leaves ps us) (hs : (list vs).Leaves qs ws) :
    (list (v :: vs)).Leaves (ps.map (0 :: ·) ++ qs.map behind) (us ++ ws) where
  sorted     := by
    rw [List.pairwise_append, List.pairwise_map, List.pairwise_map]
    refine ⟨?first, ?others, ?across⟩
    case first  => exact h.sorted.imp fun hl => List.cons_lt_cons_iff.mpr (.inr ⟨rfl, hl⟩)
    case others => exact hs.sorted.imp_of_mem fun hm _ hl => behind_lt_behind (hs.ne_nil hm) hl
    case across =>
      intro is hi js hj
      have ⟨is', _, hi⟩ := List.mem_map.mp hi
      have ⟨js', hm, hj⟩ := List.mem_map.mp hj
      subst hi hj
      cases js'
      case nil  => cases hs.ne_nil hm rfl
      case cons => exact List.cons_lt_cons_iff.mpr (.inl (Nat.succ_pos _))
  mem_iff is := by
    cases is
    case nil =>
      have hn : ∀ is ∈ qs, behind is ≠ [] := fun is hm => behind_ne_nil (hs.ne_nil hm)
      simpa [at?, isList] using hn
    case cons i is =>
      cases i
      case zero   => simpa [behind_eq_cons_iff, at?] using h.mem_iff is
      case succ i => simpa [behind_eq_cons_iff, at?] using hs.mem_iff (i :: is)
  at_eq      := by
    have hv : (list (v :: vs)).at? ∘ (0 :: ·) = v.at? := rfl
    have hb : qs.map ((list (v :: vs)).at? ∘ behind) = qs.map (list vs).at? :=
      List.map_congr_left fun is hm => at?_behind (hs.ne_nil hm)
    rw [List.map_append, List.map_append, List.map_map, List.map_map, hv, hb, h.at_eq, hs.at_eq]

theorem not_isList (h : v.Leaves ps vs) (hm : u ∈ vs) : ¬u.isList := by
  have hu : some u ∈ ps.map v.at? := h.at_eq ▸ List.mem_map_of_mem hm
  have ⟨is, hi, he⟩ := List.mem_map.mp hu
  have ⟨w, hw, hl⟩ := (h.mem_iff is).mp hi
  cases he.symm.trans hw
  exact hl

theorem unique (h : v.Leaves ps vs) (h' : v.Leaves qs ws) : vs = ws := by
  have hm : ∀ is, is ∈ ps ↔ is ∈ qs := fun is => (h.mem_iff is).trans (h'.mem_iff is).symm
  have hp : ps = qs := h.sorted.eq_of_mem_iff h'.sorted hm
  subst hp
  have hs : vs.map some = ws.map some := h.at_eq.trans h'.at_eq.symm
  exact List.map_injective_iff.mpr (Option.some_injective Value) hs

end Leaves

end Value

namespace Sequence

open Value

-- One group is opened, at the top or inside another group.
inductive Opens : List Value → List Value → Prop
  | here (us vs ws)                   : Opens (us ++ [list vs] ++ ws) (us ++ vs ++ ws)
  | inside (us ws) (h : Opens vs vs') : Opens (us ++ [list vs] ++ ws) (us ++ [list vs'] ++ ws)

def Regroups : List Value → List Value → Prop :=
  Relation.EqvGen Opens

variable {us vs ws : List Value} {v : Value}

theorem flatten_append : flatten (us ++ vs) = flatten us ++ flatten vs := by
  induction us
  case nil          => rfl
  case cons v us hi => rw [List.cons_append, flatten, hi, flatten, List.append_assoc]

theorem flatten_opened : flatten (us ++ [list vs] ++ ws) = flatten (us ++ vs ++ ws) := by
  simp [flatten_append, flatten, leaves]

theorem Opens.flatten_eq (h : Opens us vs) : flatten us = flatten vs := by
  induction h
  case here              => exact flatten_opened
  case inside us ws _ hi => simp [flatten_append, flatten, leaves, hi]

theorem Regroups.flatten_eq (h : Regroups us vs) : flatten us = flatten vs := by
  induction h
  case rel h        => exact h.flatten_eq
  case refl         => rfl
  case symm hi      => exact hi.symm
  case trans hi hi' => exact hi.trans hi'

theorem Opens.append (h : Opens vs ws) (us xs : List Value) :
    Opens (us ++ vs ++ xs) (us ++ ws ++ xs) := by
  cases h
  case here us' vs ws'      => simpa using here (us ++ us') vs (ws' ++ xs)
  case inside _ _ us' ws' h => simpa using inside (us ++ us') (ws' ++ xs) h

theorem Regroups.append (h : Regroups vs ws) (us xs : List Value) :
    Regroups (us ++ vs ++ xs) (us ++ ws ++ xs) := by
  induction h
  case rel h        => exact .rel _ _ (h.append us xs)
  case refl         => exact .refl _
  case symm hi      => exact .symm _ _ hi
  case trans hi hi' => exact .trans _ _ _ hi hi'

theorem leaves_of_not_isList (h : ¬v.isList) : leaves v = [v] := by
  cases v
  case list => cases h rfl
  all_goals rfl

mutual

theorem regroups_leaves : ∀ v : Value, Regroups [v] (leaves v)
  | list vs => by
    have ho : Opens ([] ++ [list vs] ++ []) ([] ++ vs ++ []) := .here [] vs []
    rw [List.append_nil, List.append_nil] at ho
    exact .trans _ _ _ (.rel _ _ ho) (regroups_flatten vs)
  | .null | .bool _ | .int _ | .float _ | .text _ | .object _ => .refl _

theorem regroups_flatten : ∀ vs : List Value, Regroups vs (flatten vs)
  | []      => .refl _
  | v :: vs => by
    have hv := (regroups_leaves v).append [] vs
    have hs := (regroups_flatten vs).append (leaves v) []
    simp only [List.append_nil, List.nil_append, List.singleton_append] at hv hs
    exact .trans _ _ _ hv hs

end

theorem flatten_eq_iff_regroups : flatten vs = flatten ws ↔ Regroups vs ws := by
  constructor
  case mp =>
    intro h
    exact .trans _ _ _ (regroups_flatten vs) (h ▸ .symm _ _ (regroups_flatten ws))
  case mpr => exact Regroups.flatten_eq

theorem flatten_of_forall (h : ∀ v ∈ vs, ¬v.isList) : flatten vs = vs := by
  induction vs
  case nil => rfl
  case cons v vs hi =>
    have ⟨hv, hs⟩ := List.forall_mem_cons.mp h
    rw [flatten, leaves_of_not_isList hv, hi hs, List.singleton_append]

mutual

theorem exists_leaves : ∀ v : Value, ∃ ps, v.Leaves ps (leaves v)
  | list vs => exists_leaves_flatten vs
  | .null | .bool _ | .int _ | .float _ | .text _ | .object _ =>
    ⟨_, .of_not_isList Bool.false_ne_true⟩

theorem exists_leaves_flatten : ∀ vs : List Value, ∃ ps, (list vs).Leaves ps (flatten vs)
  | []      => ⟨_, .nil⟩
  | v :: vs =>
    have ⟨_, hv⟩ := exists_leaves v
    have ⟨_, hs⟩ := exists_leaves_flatten vs
    ⟨_, hv.cons hs⟩

end

theorem flatten_eq_iff_leaves : flatten vs = ws ↔ ∃ ps, (list vs).Leaves ps ws := by
  have ⟨ps, h⟩ := exists_leaves_flatten vs
  constructor
  case mp =>
    intro he
    exact ⟨ps, he ▸ h⟩
  case mpr =>
    intro ⟨qs, hq⟩
    exact h.unique hq

theorem not_isList_of_mem_flatten (h : v ∈ flatten vs) : ¬v.isList := by
  have ⟨ps, hp⟩ := exists_leaves_flatten vs
  exact hp.not_isList h

theorem flatten_flatten : flatten (flatten vs) = flatten vs :=
  flatten_of_forall fun _ => not_isList_of_mem_flatten

-- What is flattened holds the values that are no lists, in their order, and no list. Two sequences
-- are flattened to the same one if and only if they differ in their groups at most.
theorem flattening_exact :
    (∀ vs, ∀ v ∈ flatten vs, ¬v.isList) ∧
    (∀ vs, (∀ v ∈ vs, ¬v.isList) → flatten vs = vs) ∧
    (∀ us vs ws, flatten (us ++ [list vs] ++ ws) = flatten (us ++ vs ++ ws)) ∧
    (∀ vs ws, flatten vs = flatten ws ↔ Regroups vs ws) ∧
    (∀ vs ws, flatten vs = ws ↔ ∃ places, (list vs).Leaves places ws) ∧
    ∀ vs, flatten (flatten vs) = flatten vs := by
  refine ⟨fun vs v => not_isList_of_mem_flatten, fun vs => flatten_of_forall,
    fun us vs ws => flatten_opened, fun vs ws => flatten_eq_iff_regroups,
    fun vs ws => flatten_eq_iff_leaves, fun vs => flatten_flatten⟩

theorem flattening_exact_scalars :
    (∀ v ∈ [Value.null, .text ""], ¬v.isList) ∧
      flatten [.null, list [], list [list [.text ""]]] = [.null, .text ""] := by
  have h : ∀ v ∈ [Value.null, .text ""], ¬v.isList := by simp [Value.isList]
  have ⟨_, scalars, opened, _⟩ := flattening_exact
  refine ⟨h, ?_⟩
  calc
    flatten [.null, list [], list [list [.text ""]]]
    _ = flatten [.null, list [list [.text ""]]] := opened [.null] [] [list [list [.text ""]]]
    _ = flatten [.null, list [.text ""]]        := opened [.null] [list [.text ""]] []
    _ = flatten [.null, .text ""]               := opened [.null] [.text ""] []
    _ = [.null, .text ""]                       := scalars _ h

end Sequence

end Switchboard
