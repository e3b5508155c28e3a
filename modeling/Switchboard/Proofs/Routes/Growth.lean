import Switchboard.Proofs.Routes.First

namespace Switchboard

variable {α : Type}

namespace Routes

-- How a choice may change when a route is added: not at all, or from one fallback to the other, or
-- to the new route if that competes and the old choice loses to it.
inductive Revised (rs : Routes α) (k : String) (f : α) (Loses : Choice α → Prop) :
    Choice α → Choice α → Prop
  | kept : Revised rs k f Loses c c
  | fallen : Revised rs k f Loses rs.fallback (rs.insert k f).fallback
  | won (hw : ¬Text.spellsWildcard k) (hl : Loses c) :
    Revised rs k f Loses c (.route (.make k f) args)

variable {rs : Routes α} {r q : Route α} {qs : List (Route α)} {f : α} {k : String}
variable {suits : Route α → Bool} {args : List Value} {vs : List Value} {v : Value}
variable {registry : Registry} {c c' : Choice α}

theorem put_of_not_mem (h : r.key ∉ qs.map Route.key) : put r qs = qs ++ [r] := by
  induction qs
  case nil => rfl
  case cons q qs hi =>
    simp only [List.map_cons, List.mem_cons, not_or] at h
    simp [put, Ne.symm h.left, hi h.right]

theorem routes_insert (hk : k ∉ rs.keys) : (rs.insert k f).routes = rs.routes ++ [.make k f] :=
  put_of_not_mem hk

theorem isFallback_make : (Route.make k f).isFallback = Text.spellsWildcard k :=
  Route.isFallback_eq

theorem competing_insert (hk : k ∉ rs.keys) :
    (rs.insert k f).competing =
      if Text.spellsWildcard k then rs.competing else rs.competing ++ [.make k f] := by
  rw [competing, routes_insert hk, List.filter_append, ← competing]
  cases hw : Text.spellsWildcard k <;> simp [isFallback_make, hw]

theorem fallback?_insert (hk : k ∉ rs.keys) :
    (rs.insert k f).fallback? =
      if k = "_" then some (.make k f)
      else rs.fallback?.or (if Text.spellsWildcard k then some (.make k f) else none) := by
  rw [fallback?, get?_insert, routes_insert hk, List.find?_append]
  by_cases hu : k = "_"
  case pos => simp [hu]
  case neg =>
    rw [if_neg hu, if_neg hu, fallback?, Option.or_assoc]
    cases hw : Text.spellsWildcard k <;> simp [isFallback_make, hw]

theorem fallback_insert_of_not_spellsWildcard (hk : k ∉ rs.keys) (hw : ¬Text.spellsWildcard k) :
    (rs.insert k f).fallback = rs.fallback := by
  have hu : k ≠ "_" := by
    rintro rfl
    exact hw Text.spellsWildcard_underscore
  simp [fallback, fallback?_insert hk, hu, hw]

-- A new fallback goes before the old one only if its key is bare.
theorem fallback_insert (hk : k ∉ rs.keys) :
    (rs.insert k f).fallback = rs.fallback ∨
      (rs.insert k f).fallback = .route (.make k f) [] ∧
        (k = "_" ∨ ∀ j ∈ rs.keys, ¬Text.spellsWildcard j) := by
  by_cases hw : Text.spellsWildcard k
  case neg => exact .inl (fallback_insert_of_not_spellsWildcard hk hw)
  case pos =>
    by_cases hu : k = "_"
    case pos =>
      have hf : (rs.insert k f).fallback? = some (.make k f) := by
        rw [fallback?_insert hk, if_pos hu]
      exact .inr ⟨by simp [fallback, hf], .inl hu⟩
    case neg =>
      cases hf : rs.fallback?
      case none =>
        refine .inr ⟨?_, .inr (fallback?_eq_none_iff.mp hf)⟩
        simp [fallback, fallback?_insert hk, hu, hw, hf]
      case some r => exact .inl (by simp [fallback, fallback?_insert hk, hu, hf])

namespace Revised

variable {Loses : Choice α → Prop}

theorem eq_or (h : Revised rs k f Loses c c') (hk : k ∉ rs.keys) :
    c' = c ∨ ∃ args, c' = .route (.make k f) args := by
  cases h
  case kept   => exact .inl rfl
  case fallen => exact (fallback_insert hk).imp_right fun h => ⟨[], h.left⟩
  case won    => exact .inr ⟨_, rfl⟩

theorem loses (h : Revised rs k f Loses c (.route (.make k f) args)) (hk : k ∉ rs.keys)
    (hw : ¬Text.spellsWildcard k) (hc : c ≠ .route (.make k f) args) : Loses c := by
  generalize hr : Choice.route (.make k f) args = c' at h hc
  cases h
  case kept     => exact absurd rfl hc
  case fallen   => exact absurd (fallback_insert_of_not_spellsWildcard hk hw).symm hc
  case won _ hl => exact hl

theorem of_spellsWildcard (h : Revised rs k f Loses c c') (hk : k ∉ rs.keys)
    (hw : Text.spellsWildcard k) (hc : c' ≠ c) :
    c = rs.fallback ∧ (k = "_" ∨ ∀ j ∈ rs.keys, ¬Text.spellsWildcard j) := by
  cases h
  case kept      => exact absurd rfl hc
  case fallen    => exact ⟨rfl, ((fallback_insert hk).resolve_left hc).right⟩
  case won hn _  => exact absurd hw hn

end Revised

theorem revised_first (hk : k ∉ rs.keys) :
    Revised rs k f (· = rs.fallback) (rs.first suits args) ((rs.insert k f).first suits args) := by
  cases hc : rs.competing.find? suits
  case some r =>
    have hc' : (rs.insert k f).competing.find? suits = some r := by
      rw [competing_insert hk]
      split <;> simp [List.find?_append, hc]
    rw [first_eq_route hc, first_eq_route hc']
    exact .kept
  case none =>
    rw [first_eq_fallback (List.find?_eq_none.mp hc)]
    cases hc' : (rs.insert k f).competing.find? suits
    case none =>
      rw [first_eq_fallback (List.find?_eq_none.mp hc')]
      exact .fallen
    case some r =>
      rw [first_eq_route hc']
      rw [competing_insert hk] at hc'
      by_cases hw : Text.spellsWildcard k
      case pos => simp [hw, hc] at hc'
      case neg =>
        simp only [if_neg hw, List.find?_append, hc, Option.none_or] at hc'
        have hr := List.mem_singleton.mp (List.mem_of_find?_eq_some hc')
        exact hr ▸ .won hw rfl

-- A route that takes a list took it before, or is the new one and less open than all that accept
-- the list.
theorem takes_of_takes_insert (hk : k ∉ rs.keys) (h : (rs.insert k f).Takes vs q) :
    rs.Takes vs q ∨ q = .make k f ∧
      ∀ r ∈ rs.routes, r.Accepts vs → (Route.make k f).openPlaces.length < r.openPlaces.length := by
  have ⟨as, bs, hs, ha, hb, hl⟩ := h
  rw [routes_insert hk] at hs
  cases List.eq_nil_or_concat' bs
  case inl hn =>
    rw [hn] at hs
    have ⟨hr, hq⟩ := List.append_inj' hs rfl
    cases hq
    exact .inr ⟨rfl, fun r hm => hb r (hr ▸ hm)⟩
  case inr hn =>
    have ⟨bs', b, hn⟩ := hn
    rw [hn, ← List.cons_append, ← List.append_assoc] at hs
    have ⟨hr, _⟩ := List.append_inj' hs rfl
    exact .inl ⟨as, bs', hr, ha, hb, fun b hm => hl b (by simp [hn, hm])⟩

theorem Routed.eq_fallback (h : rs.Routed vs c) (hn : ∀ r ∈ rs.routes, ¬r.Accepts vs) :
    c = rs.fallback := by
  cases h
  case taken r _ ht _  => exact absurd ht.accepts (hn r ht.mem)
  case fallen r _ hf   => simp [fallback, hf]
  case unanswered _ hu => simp [fallback, fallback?_eq_none_iff.mpr hu]

theorem Routed.eq_fallback_or_takes (h : rs.Routed vs c) :
    c = rs.fallback ∨ ∃ q args, c = .route q args ∧ rs.Takes vs q := by
  by_cases hn : ∀ r ∈ rs.routes, ¬r.Accepts vs
  case pos => exact .inl (h.eq_fallback hn)
  case neg =>
    cases h
    case taken r args ht _ => exact .inr ⟨r, args, rfl, ht⟩
    case fallen hn' _     => exact absurd hn' hn
    case unanswered hn' _ => exact absurd hn' hn

theorem revised_matchList (hk : k ∉ rs.keys) :
    Revised rs k f
      (fun c => (Route.make k f).Accepts vs ∧ (c = rs.fallback ∨ ∃ q args, c = .route q args ∧
        (Route.make k f).openPlaces.length < q.openPlaces.length))
      (rs.matchList vs) ((rs.insert k f).matchList vs) := by
  have h := routed_matchList rs vs
  have h' := routed_matchList (rs.insert k f) vs
  by_cases hn : ∀ r ∈ (rs.insert k f).routes, ¬r.Accepts vs
  case pos =>
    have hr : ∀ r ∈ rs.routes, ¬r.Accepts vs := fun r hm => hn r (by simp [routes_insert hk, hm])
    rw [h.eq_fallback hr, h'.eq_fallback hn]
    exact .fallen
  case neg =>
    generalize (rs.insert k f).matchList vs = c' at h'
    cases h'
    case fallen hn' _     => exact absurd hn' hn
    case unanswered hn' _ => exact absurd hn' hn
    case taken q args ht ha =>
      rcases takes_of_takes_insert hk ht with hq | ⟨hq, hl⟩
      case inl =>
        rw [h.unique (.taken hq ha)]
        exact .kept
      case inr =>
        cases hq
        have hw : ¬Text.spellsWildcard k := by
          have hf := ht.accepts.not_isFallback
          simpa [isFallback_make] using hf
        refine .won hw ⟨ht.accepts, ?_⟩
        exact h.eq_fallback_or_takes.imp_right fun ⟨q, args, hc, hq⟩ =>
          ⟨q, args, hc, hl q hq.mem hq.accepts⟩

theorem revised_matchIn (hk : k ∉ rs.keys) (hv : v.list? = none) :
    Revised rs k f (· = rs.fallback) (rs.matchIn registry v)
      ((rs.insert k f).matchIn registry v) := by
  rw [matchIn_eq_first hv, matchIn_eq_first hv]
  exact revised_first hk

theorem exists_revised_matchIn (hk : k ∉ rs.keys) :
    ∃ Loses, Revised rs k f Loses (rs.matchIn registry v) ((rs.insert k f).matchIn registry v) := by
  cases hv : v.list?
  case none    => exact ⟨_, revised_matchIn hk hv⟩
  case some vs =>
    cases v <;> cases hv
    exact ⟨_, revised_matchList hk⟩

theorem revised_dispatch (hk : k ∉ rs.keys) :
    Revised rs k f (· = rs.fallback) (rs.dispatch args) ((rs.insert k f).dispatch args) := by
  rw [dispatch_eq_first, dispatch_eq_first]
  exact revised_first hk

theorem mem_of_fallback_eq_route (h : rs.fallback = .route r args) : r ∈ rs.routes := by
  rw [fallback] at h
  split at h <;> cases h
  exact mem_of_fallback?_eq_some ‹_›

theorem mem_of_first_eq_route {given : List Value} (h : rs.first suits args = .route r given) :
    r ∈ rs.routes := by
  cases hc : rs.competing.find? suits
  case none =>
    rw [first_eq_fallback (List.find?_eq_none.mp hc)] at h
    exact mem_of_fallback_eq_route h
  case some q =>
    rw [first_eq_route hc] at h
    cases h
    exact mem_of_mem_competing (List.mem_of_find?_eq_some hc)

theorem mem_of_matchIn_eq_route (h : rs.matchIn registry v = .route r args) : r ∈ rs.routes := by
  cases hv : v.list?
  case none    => exact mem_of_first_eq_route (matchIn_eq_first hv ▸ h)
  case some vs =>
    cases v <;> cases hv
    have hr := routed_matchList rs vs
    rw [show rs.matchList vs = .route r args from h] at hr
    cases hr
    case taken ht _  => exact ht.mem
    case fallen _ hf => exact mem_of_fallback?_eq_some hf

theorem matchIn_ne_route (hk : k ∉ rs.keys) : rs.matchIn registry v ≠ .route (.make k f) args :=
  fun h => hk (mem_keys (mem_of_matchIn_eq_route h))

theorem dispatch_ne_route {given : List Value} (hk : k ∉ rs.keys) :
    rs.dispatch args ≠ .route (.make k f) given :=
  fun h => hk (mem_keys (mem_of_first_eq_route (dispatch_eq_first rs args ▸ h)))

-- What the insertion of a handler under a new key leaves as it is. The old choice is the fallback
-- only if no other route was taken, since the route of the fallback never competes.
structure Undisturbed (rs : Routes α) (k : String) (f : α) : Prop where
  matchIn_eq_or     : ∀ registry v, (rs.insert k f).matchIn registry v = rs.matchIn registry v ∨
                        ∃ args, (rs.insert k f).matchIn registry v = .route (.make k f) args
  dispatch_eq_or    : ∀ args, (rs.insert k f).dispatch args = rs.dispatch args ∨
                        ∃ given, (rs.insert k f).dispatch args = .route (.make k f) given
  matchIn_fallback  : ¬Text.spellsWildcard k → ∀ registry v args, v.list? = none →
                        (rs.insert k f).matchIn registry v = .route (.make k f) args →
                        rs.matchIn registry v = rs.fallback
  dispatch_fallback : ¬Text.spellsWildcard k → ∀ args given,
                        (rs.insert k f).dispatch args = .route (.make k f) given →
                        rs.dispatch args = rs.fallback
  matchIn_list      : ¬Text.spellsWildcard k → ∀ registry vs args,
                        (rs.insert k f).matchIn registry (.list vs) = .route (.make k f) args →
                        (Route.make k f).Accepts vs ∧
                          (rs.matchIn registry (.list vs) = rs.fallback ∨
                            ∃ q given, rs.matchIn registry (.list vs) = .route q given ∧
                              (Route.make k f).openPlaces.length < q.openPlaces.length)
  matchIn_wildcard  : Text.spellsWildcard k → ∀ registry v,
                        (rs.insert k f).matchIn registry v ≠ rs.matchIn registry v →
                        rs.matchIn registry v = rs.fallback ∧
                          (k = "_" ∨ ∀ j ∈ rs.keys, ¬Text.spellsWildcard j)
  dispatch_wildcard : Text.spellsWildcard k → ∀ args,
                        (rs.insert k f).dispatch args ≠ rs.dispatch args →
                        rs.dispatch args = rs.fallback ∧
                          (k = "_" ∨ ∀ j ∈ rs.keys, ¬Text.spellsWildcard j)

theorem undisturbed_insert (hk : k ∉ rs.keys) : rs.Undisturbed k f where
  matchIn_eq_or registry v :=
    have ⟨_, h⟩ := exists_revised_matchIn hk
    h.eq_or hk
  dispatch_eq_or args := (revised_dispatch hk).eq_or hk
  matchIn_fallback hw registry v args hv hn :=
    have h := revised_matchIn (f := f) hk hv
    (hn ▸ h).loses hk hw (matchIn_ne_route hk)
  dispatch_fallback hw args given hn :=
    have h := revised_dispatch (f := f) hk
    (hn ▸ h).loses hk hw (dispatch_ne_route hk)
  matchIn_list hw registry vs args hn := by
    have h : Revised rs k f _ (rs.matchIn registry (.list vs))
      ((rs.insert k f).matchIn registry (.list vs)) := revised_matchList hk
    rw [hn] at h
    exact h.loses hk hw (matchIn_ne_route hk)
  matchIn_wildcard hw registry v hc :=
    have ⟨_, h⟩ := exists_revised_matchIn hk
    h.of_spellsWildcard hk hw hc
  dispatch_wildcard hw args hc := (revised_dispatch hk).of_spellsWildcard hk hw hc

theorem undisturbed_insert_literal :
    "[\"a\"]" ∉ (ofList [("[x]", 0), (" _ ", 1)]).keys ∧
      (ofList [("[x]", 0), (" _ ", 1)]).Undisturbed "[\"a\"]" 2 :=
  ⟨by decide, undisturbed_insert (by decide)⟩

end Routes

end Switchboard
