import Mathlib.Data.List.Nodup
import Switchboard.Proofs.Pattern.Reading
import Switchboard.Routes.Arity

namespace Switchboard

namespace Text

def spellsWildcard (s : String) : Bool :=
  trim s.toList == ['_']

theorem spellsWildcard_underscore : spellsWildcard "_" := by
  decide

end Text

namespace Pattern

theorem isWildcard_ofString (s : String) : (ofString s).isWildcard = Text.spellsWildcard s := by
  rw [Bool.eq_iff_iff, ofString, isWildcard_ofChars, Text.spellsWildcard, beq_iff_eq]

theorem eq_wildcard_of_isWildcard {p : Pattern} (h : p.isWildcard) : p = wildcard := by
  cases p <;> simp_all [isWildcard]

theorem arityOfString_of_spellsWildcard {s : String} (h : Text.spellsWildcard s) :
    arityOfString s = 0 := by
  rw [← isWildcard_ofString] at h
  rw [arityOfString, eq_wildcard_of_isWildcard h, arity]

end Pattern

namespace Route

variable {α : Type} {r : Route α}

theorem isFallback_eq : r.isFallback = Text.spellsWildcard r.key := by
  rw [isFallback, r.pattern_eq, Pattern.isWildcard_ofString]

theorem arity_pattern : r.pattern.arity = Pattern.arityOfString r.key := by
  rw [r.pattern_eq, Pattern.arityOfString]

end Route

namespace Routes

variable {α : Type} {rs : Routes α} {r : Route α} {qs : List (Route α)} {f : α} {j k : String}
variable {p : Route α → Bool} {args : List Value}

theorem mem_keys_iff : k ∈ rs.keys ↔ ∃ r ∈ rs.routes, r.key = k :=
  List.mem_map

theorem eq_of_key_eq {q : Route α} (hr : r ∈ rs.routes) (hq : q ∈ rs.routes)
    (h : r.key = q.key) : r = q :=
  List.inj_on_of_nodup_map rs.distinct hr hq h

theorem get?_eq_some_iff : rs.get? k = some r ↔ r ∈ rs.routes ∧ r.key = k := by
  constructor
  case mp =>
    intro h
    exact ⟨List.mem_of_find?_eq_some h, by simpa using List.find?_some h⟩
  case mpr =>
    rintro ⟨hm, rfl⟩
    have hs : (rs.get? r.key).isSome := List.find?_isSome.mpr ⟨r, hm, by simp⟩
    have ⟨q, hq⟩ := Option.isSome_iff_exists.mp hs
    have hk : q.key = r.key := by simpa using List.find?_some hq
    rw [hq, eq_of_key_eq (List.mem_of_find?_eq_some hq) hm hk]

theorem get?_of_mem (h : r ∈ rs.routes) : rs.get? r.key = some r :=
  get?_eq_some_iff.mpr ⟨h, rfl⟩

theorem mem_of_mem_competing (h : r ∈ rs.competing) : r ∈ rs.routes :=
  List.mem_of_mem_filter h

theorem invoke_eq_route (h : r ∈ rs.routes) : rs.invoke r.key args = .route r args := by
  simp [invoke, get?_of_mem h]

theorem invoke_of_find?_eq_some (h : rs.competing.find? p = some r) :
    rs.invoke r.key args = .route r args :=
  invoke_eq_route (mem_of_mem_competing (List.mem_of_find?_eq_some h))

theorem mem_keys (h : r ∈ rs.routes) : r.key ∈ rs.keys :=
  List.mem_map_of_mem h

theorem find?_routes (p : String → Bool) :
    rs.routes.find? (p ·.key) = (rs.keys.find? p).bind rs.get? := by
  rw [keys, List.find?_map]
  change _ = ((rs.routes.find? (p ·.key)).map _).bind _
  cases h : rs.routes.find? (p ·.key)
  case none   => rfl
  case some r => exact (get?_of_mem (List.mem_of_find?_eq_some h)).symm

theorem map_filter_routes {β : Type} (p : String → Bool) (g : String → β) :
    (rs.routes.filter (p ·.key)).map (g ·.key) = (rs.keys.filter p).map g := by
  rw [keys, List.filter_map, List.map_map]
  rfl

theorem keys_put :
    (put r qs).map Route.key =
      if r.key ∈ qs.map Route.key then qs.map Route.key else qs.map Route.key ++ [r.key] := by
  induction qs
  case nil => simp [put]
  case cons q qs hi =>
    by_cases h : q.key = r.key
    case pos => simp [put, h]
    case neg =>
      rw [put, if_neg h, List.map_cons, hi]
      simp only [List.map_cons, List.mem_cons, Ne.symm h, false_or]
      split <;> rfl

theorem find?_put :
    (put r qs).find? (·.key == k) = if r.key = k then some r else qs.find? (·.key == k) := by
  induction qs
  case nil => by_cases hk : r.key = k <;> simp [put, hk]
  case cons q qs hi =>
    by_cases h : q.key = r.key
    case pos => by_cases hk : r.key = k <;> simp [put, h, hk]
    case neg =>
      by_cases hk : q.key = k
      case pos =>
        subst hk
        simp [put, h, Ne.symm h]
      case neg => simp [put, h, hk, hi]

theorem find?_isFallback :
    rs.routes.find? Route.isFallback = (rs.keys.find? Text.spellsWildcard).bind rs.get? := by
  rw [← find?_routes]
  congr 1
  funext r
  exact Route.isFallback_eq

theorem isSome_fallback?_iff : rs.fallback?.isSome ↔ ∃ k ∈ rs.keys, Text.spellsWildcard k := by
  rw [fallback?, Option.isSome_or, Bool.or_eq_true, List.find?_isSome]
  constructor
  case mp =>
    rintro (hu | ⟨r, hm, hr⟩)
    case inl =>
      have ⟨r, hr⟩ := Option.isSome_iff_exists.mp hu
      exact ⟨"_", mem_keys_iff.mpr ⟨r, get?_eq_some_iff.mp hr⟩, Text.spellsWildcard_underscore⟩
    case inr =>
      exact ⟨r.key, mem_keys hm, Route.isFallback_eq ▸ hr⟩
  case mpr =>
    rintro ⟨k, hm, hk⟩
    have ⟨r, hr, he⟩ := mem_keys_iff.mp hm
    exact .inr ⟨r, hr, by rwa [Route.isFallback_eq, he]⟩

theorem fallback?_eq_none_iff :
    rs.fallback? = none ↔ ∀ k ∈ rs.keys, ¬Text.spellsWildcard k := by
  rw [← Option.not_isSome_iff_eq_none, isSome_fallback?_iff]
  simp only [not_exists, not_and]

theorem mem_of_fallback?_eq_some (h : rs.fallback? = some r) : r ∈ rs.routes := by
  rcases Option.or_eq_some_iff.mp h with hu | ⟨_, hp⟩
  · exact (get?_eq_some_iff.mp hu).left
  · exact List.mem_of_find?_eq_some hp

theorem spellsWildcard_of_fallback?_eq_some (h : rs.fallback? = some r) :
    Text.spellsWildcard r.key := by
  rcases Option.or_eq_some_iff.mp h with hu | ⟨_, hp⟩
  · rw [(get?_eq_some_iff.mp hu).right]
    exact Text.spellsWildcard_underscore
  · rw [← Route.isFallback_eq]
    exact List.find?_some hp

theorem keys_insert :
    (rs.insert j f).keys = if j ∈ rs.keys then rs.keys else rs.keys ++ [j] :=
  keys_put

theorem get?_insert : (rs.insert j f).get? k = if j = k then some (.make j f) else rs.get? k :=
  find?_put

end Routes

namespace ArityIndex

variable {α : Type} {rs : Routes α} {k : String}

def listed (r : Route α) : Option Nat :=
  if r.isFallback then none else some r.pattern.arity

theorem arities_ofRoutes : (ofRoutes rs).arities = rs.routes.map listed := by
  rw [ofRoutes, Routes.keys, List.map_map]
  refine List.map_congr_left fun r hr => ?_
  cases hf : r.pattern.isWildcard <;>
    simp [Routes.pattern?, Routes.get?_of_mem hr, listed, Route.isFallback, hf]

theorem getD_listed {r : Route α} : (listed r).getD 0 = Pattern.arityOfString r.key := by
  unfold listed
  split
  case isTrue h =>
    rw [Route.isFallback_eq] at h
    exact (Pattern.arityOfString_of_spellsWildcard h).symm
  case isFalse => exact Route.arity_pattern

theorem get?_ofRoutes : (ofRoutes rs).get? k = (rs.get? k).map (Pattern.arityOfString ·.key) := by
  have hk : Sequence.indexOf? (ofRoutes rs).keys k = rs.routes.findIdx? (·.key == k) :=
    List.findIdx?_map
  rw [get?, hk, arities_ofRoutes, Routes.get?, List.find?_eq_bind_findIdx?_getElem?,
    Option.map_bind]
  congr 1
  funext i
  simp [Function.comp_def, getD_listed]

def firstOf? (x : ArityIndex) (n : Nat) : Option String :=
  (Sequence.indexOf? x.arities (some n)).bind (x.keys[·]?)

-- A key that is listed without an arity never has the arity that is asked for.
theorem firstOf?_ofRoutes (rs : Routes α) (n : Nat) :
    (ofRoutes rs).firstOf? n = (rs.competing.find? (·.pattern.arity == n)).map Route.key := by
  have hl : (fun r : Route α => decide (!r.isFallback ∧ r.pattern.arity == n)) =
      (· == some n) ∘ listed := by
    funext r
    cases hr : r.isFallback <;> simp [listed, hr, Bool.beq_eq_decide_eq]
  have hi : Sequence.indexOf? (ofRoutes rs).arities (some n) =
      rs.routes.findIdx? ((· == some n) ∘ listed) := by
    rw [arities_ofRoutes]
    exact List.findIdx?_map
  rw [firstOf?, hi, Routes.competing, List.find?_filter, hl, List.find?_eq_bind_findIdx?_getElem?,
    Option.map_bind]
  congr 1
  funext i
  exact List.getElem?_map

-- Either the first competing route of the arity is found, or the only route catches what falls
-- through and is found in its own right.
theorem firstWith?_ofRoutes (rs : Routes α) (n : Nat) :
    (ofRoutes rs).firstWith? n = (rs.competing.find? (·.pattern.arity == n)).map Route.key ∨
      ∃ r, rs.routes = [r] ∧ r.isFallback ∧ n = 0 ∧ (ofRoutes rs).firstWith? n = some r.key := by
  rw [← firstOf?_ofRoutes]
  unfold firstWith?
  split
  case h_1 k hk ha =>
    have ⟨r, hr, hk⟩ := List.map_eq_singleton_iff.mp hk
    refine .inr ⟨r, hr, ?_⟩
    cases hf : r.isFallback <;> simp_all [arities_ofRoutes, listed]
  case h_2 => exact .inl rfl

end ArityIndex

end Switchboard
