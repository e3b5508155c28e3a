import Switchboard.Proofs.Routes.Selection
import Switchboard.Routes.Arity

namespace Switchboard

theorem Pattern.arity_of_literal?_eq_some {p : Pattern} {l : Literal} (h : p.literal? = some l) :
    p.arity = 0 := by
  cases p
  case literal => rfl
  all_goals cases h

variable {α : Type}

namespace Choice

-- The route is the one that is stored under its key, and it gets as many arguments as its key has
-- holes. Nothing is run only if there is no route to fall back to.
inductive Fits (rs : Routes α) : Choice α → Prop
  | route (hs : rs.get? r.key = some r) (ha : args.length = Pattern.arityOfString r.key) :
    Fits rs (.route r args)
  | unanswered (hn : ∀ k ∈ rs.keys, ¬Text.spellsWildcard k) : Fits rs .unanswered

inductive IsBare (rs : Routes α) : Choice α → Prop
  | route (hs : rs.get? r.key = some r) : IsBare rs (.route r [])
  | unanswered (hn : ∀ k ∈ rs.keys, ¬Text.spellsWildcard k) : IsBare rs .unanswered

end Choice

namespace Routes

variable {rs : Routes α} {r : Route α} {vs args : List Value} {c : Choice α}
variable {k : String} {n : Nat}

theorem isBare_fallback (rs : Routes α) : rs.fallback.IsBare rs := by
  rw [fallback]
  split
  case h_1 r hf => exact .route (get?_of_mem (mem_of_fallback?_eq_some hf))
  case h_2 hf   => exact .unanswered (fallback?_eq_none_iff.mp hf)

theorem fits_of_fallback?_eq_some (h : rs.fallback? = some r) : (Choice.route r []).Fits rs := by
  have ha := Pattern.arityOfString_of_spellsWildcard (spellsWildcard_of_fallback?_eq_some h)
  exact .route (get?_of_mem (mem_of_fallback?_eq_some h)) ha.symm

theorem fits_fallback (rs : Routes α) : rs.fallback.Fits rs := by
  rw [fallback]
  split
  case h_1 r hf => exact fits_of_fallback?_eq_some hf
  case h_2 hf   => exact .unanswered (fallback?_eq_none_iff.mp hf)

theorem exists_of_firstWith?_eq_some (h : (ArityIndex.ofRoutes rs).firstWith? n = some k) :
    ∃ r ∈ rs.routes, r.key = k ∧ Pattern.arityOfString k = n := by
  rcases ArityIndex.firstWith?_ofRoutes rs n with hf | ⟨r, hr, hf, hn, hk⟩
  case inl =>
    have ⟨r, hr, hk⟩ := Option.map_eq_some_iff.mp (hf.symm.trans h)
    have ha := List.find?_some hr
    rw [beq_iff_eq, Route.arity_pattern, hk] at ha
    exact ⟨r, mem_of_mem_competing (List.mem_of_find?_eq_some hr), hk, ha⟩
  case inr =>
    cases hk.symm.trans h
    rw [Route.isFallback_eq] at hf
    exact ⟨r, by simp [hr], rfl, hn ▸ Pattern.arityOfString_of_spellsWildcard hf⟩

theorem fits_dispatch (rs : Routes α) (args : List Value) : (rs.dispatch args).Fits rs := by
  rw [dispatch]
  split
  case h_1 k hk =>
    obtain ⟨r, hm, hr, ha⟩ := exists_of_firstWith?_eq_some hk
    rw [← hr, invoke_eq_route hm]
    exact .route (get?_of_mem hm) (hr ▸ ha.symm)
  case h_2 => exact fits_fallback rs

theorem fits_matchScalar (rs : Routes α) (v : Value) : (rs.matchScalar v).Fits rs := by
  rw [matchScalar]
  split
  case isTrue  => exact fits_fallback rs
  case isFalse =>
    split
    case h_1 r hr =>
      have hm := mem_of_mem_competing (List.mem_of_find?_eq_some hr)
      have hl := List.find?_some hr
      have ⟨l, hl, _⟩ := (Option.any_eq_true _ _).mp hl
      have ha := Pattern.arity_of_literal?_eq_some hl
      rw [invoke_of_find?_eq_some hr]
      exact .route (get?_of_mem hm) (by rw [← Route.arity_pattern, ha, List.length_nil])
    case h_2 => exact fits_fallback rs

theorem Routed.fits (h : rs.Routed vs c) : c.Fits rs := by
  cases h
  case taken r args ht ha =>
    have ⟨ps, hp, hv⟩ := ht.accepts
    have hl := congrArg List.length ha
    rw [List.length_map, List.length_map, Route.namePlaces, hp,
      Pattern.length_places_of_accepts _ (.list hv), ← hp, Route.arity_pattern] at hl
    exact .route (get?_of_mem ht.mem) hl
  case fallen r hn hf   => exact fits_of_fallback?_eq_some hf
  case unanswered hn hu => exact .unanswered hu

theorem fits_matchList (rs : Routes α) (vs : List Value) : (rs.matchList vs).Fits rs :=
  (routed_matchList rs vs).fits

theorem isBare_matchObject (rs : Routes α) (registry : Registry) (o : Object) :
    (rs.matchObject registry o).IsBare rs := by
  rw [matchObject]
  split
  case h_1 r hr =>
    rw [invoke_of_find?_eq_some hr]
    exact .route (get?_of_mem (mem_of_mem_competing (List.mem_of_find?_eq_some hr)))
  case h_2 => exact isBare_fallback rs

theorem handlers_get_arity (rs : Routes α) :
    (∀ args, (rs.dispatch args).Fits rs) ∧ (∀ v, (rs.matchScalar v).Fits rs) ∧
      (∀ vs, (rs.matchList vs).Fits rs) ∧ (rs.fallback.Fits rs ∧ rs.fallback.IsBare rs) ∧
      ∀ registry o, (rs.matchObject registry o).IsBare rs :=
  ⟨fits_dispatch rs, fits_matchScalar rs, fits_matchList rs, ⟨fits_fallback rs, isBare_fallback rs⟩,
    isBare_matchObject rs⟩

end Routes

end Switchboard
