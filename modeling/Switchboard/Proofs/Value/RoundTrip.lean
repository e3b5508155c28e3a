import Switchboard.Proofs.Value.Json

namespace Switchboard

namespace Json

-- What occurs in a JSON value outside all objects.
inductive Contains : Json → Json → Prop
  | self                                  : Contains x x
  | item (hx : x ∈ xs) (h : Contains x y) : Contains (array xs) y

variable {i : Whole}

theorem ofBinary64_ne_whole {x : Binary64} : ofBinary64 x ≠ whole i := by
  rw [ofBinary64]
  split
  case isTrue  => exact Json.noConfusion
  case isFalse => exact Json.noConfusion

mutual

theorem narrowed_eq_self_iff : ∀ x : Json,
    x.narrowed = x ↔ ∀ i, x.Contains (whole i) → i.val ≤ Int64.maxValue.toInt
  | whole i => by
    have hm : i.val ≤ Int64.maxValue.toInt ↔ i.val < 0x8000000000000000 := Int.lt_add_one_iff.symm
    rw [narrowed]
    split
    case isTrue hi =>
      apply iff_of_true rfl
      intro j h
      cases h
      exact hm.mpr hi
    case isFalse hi =>
      apply iff_of_false ofBinary64_ne_whole
      exact fun h => hi (hm.mp (h i .self))
  | array xs => by
    rw [narrowed, array.injEq, narrowedAll_eq_self_iff xs]
    constructor
    case mp =>
      intro h i hc
      cases hc
      case item x hx hc => exact h x hx i hc
    case mpr => exact fun h x hx i hc => h i (.item hx hc)
  | null | bool _ | real _ | text _ | object _ => iff_of_true rfl fun _ h => nomatch h

theorem narrowedAll_eq_self_iff : ∀ xs : List Json,
    narrowedAll xs = xs ↔
      ∀ x ∈ xs, ∀ i, x.Contains (whole i) → i.val ≤ Int64.maxValue.toInt
  | []      => by simp [narrowedAll]
  | x :: xs => by
    rw [narrowedAll, List.cons.injEq, narrowed_eq_self_iff x, narrowedAll_eq_self_iff xs,
      List.forall_mem_cons]

end

end Json

namespace Value

inductive Contains : Value → Value → Prop
  | self                                  : Contains v v
  | item (hv : v ∈ vs) (h : Contains v w) : Contains (list vs) w

variable {n : Nat}

theorem equals_ofJson_ofInt64 (i : Int64) : (ofJson n (Json.ofInt64 i)).1.equals (int i) := by
  have hi : Word.ofInt? i.toInt = some i := Word.ofInt?_eq_some_iff.mpr rfl
  simp [Json.ofInt64, ofJson, hi, equals]

theorem equals_ofJson_ofBinary64 (x : Binary64) :
    (ofJson n (Json.ofBinary64 x)).1.equals (float x) ↔ x.isFinite := by
  rw [Json.ofBinary64]
  split
  case isTrue hx  => exact iff_of_true (Binary64.equals_self hx) hx
  case isFalse hx => exact iff_of_false Bool.false_ne_true hx

mutual

theorem equals_ofJson_toJson : ∀ (v : Value) (n : Nat), (∀ o, ¬v.Contains (object o)) →
    ((ofJson n v.toJson).1.equals v ↔ ∀ x, v.Contains (float x) → x.isFinite)
  | int i, n, _ => iff_of_true (equals_ofJson_ofInt64 i) nofun
  | float x, n, _ => by
    rw [toJson, equals_ofJson_ofBinary64]
    constructor
    case mp =>
      intro hx y h
      cases h
      exact hx
    case mpr => exact fun h => h x .self
  | list vs, n, ho => by
    rw [toJson, ofJson]
    have hs := equalsAll_ofItems_toItems vs n (fun v hv o h => ho o (.item hv h))
    constructor
    case mp =>
      intro h x hc
      cases hc
      case item v hv hc => exact hs.mp h v hv x hc
    case mpr => exact fun h => hs.mpr fun v hv x hc => h x (.item hv hc)
  | null, _, _ => iff_of_true rfl nofun
  | bool b, _, _ | text s, _, _ => iff_of_true (beq_self_eq_true _) nofun
  | object o, _, ho => absurd .self (ho o)

theorem equalsAll_ofItems_toItems : ∀ (vs : List Value) (n : Nat),
    (∀ v ∈ vs, ∀ o, ¬v.Contains (object o)) →
    (equalsAll (ofItems n (toItems vs)).1 vs ↔ ∀ v ∈ vs, ∀ x, v.Contains (float x) → x.isFinite)
  | [], _, _ => by simp [toItems, ofItems, equalsAll]
  | v :: vs, n, ho => by
    have ⟨hv, hs⟩ := List.forall_mem_cons.mp ho
    rw [List.forall_mem_cons, ← equals_ofJson_toJson v n hv,
      ← equalsAll_ofItems_toItems vs (ofJson n v.toJson).2 hs, ← Bool.and_eq_true]
    rfl

end

-- Only integers from 2^63 on are lost on the way of a JSON value, and only numbers that are not
-- finite on the way of a value.
theorem round_trips :
    (∀ (j : Json) (n : Nat),
      (ofJson n j).1.toJson = j ↔ ∀ i, j.Contains (.whole i) → i.val ≤ Int64.maxValue.toInt) ∧
    (∀ (v : Value) (n : Nat), (∀ o, ¬v.Contains (object o)) →
      ((ofJson n v.toJson).1.equals v ↔ ∀ x, v.Contains (float x) → x.isFinite)) := by
  constructor
  case left =>
    intro j n
    rw [toJson_ofJson]
    exact Json.narrowed_eq_self_iff j
  case right => exact equals_ofJson_toJson

theorem round_trips_nested :
    (ofJson 0 (.array [.object [("n", .whole ⟨0xFFFFFFFFFFFFFFFF, by decide⟩)]])).1.toJson =
        .array [.object [("n", .whole ⟨0xFFFFFFFFFFFFFFFF, by decide⟩)]] ∧
      (∀ o, ¬(list [list [float .nan]]).Contains (object o)) ∧
      ¬(ofJson 0 (list [list [float .nan]]).toJson).1.equals (list [list [float .nan]]) := by
  have hi : ∀ i m, ¬(Json.array [.object m]).Contains (.whole i) := by
    intro i m h
    cases h
    case item hx h =>
      cases List.mem_singleton.mp hx
      cases h
  have ho : ∀ o, ¬(list [list [float .nan]]).Contains (object o) := by
    intro o h
    cases h
    case item hv h =>
      cases List.mem_singleton.mp hv
      cases h
      case item hv h =>
        cases List.mem_singleton.mp hv
        cases h
  refine ⟨(round_trips.left _ 0).mpr fun i h => absurd h (hi i _), ho, fun h => ?_⟩
  have hc : (list [list [float .nan]]).Contains (float .nan) :=
    .item List.mem_cons_self (.item List.mem_cons_self .self)
  exact absurd ((round_trips.right _ 0 ho).mp h .nan hc) (by decide)

end Value

end Switchboard
