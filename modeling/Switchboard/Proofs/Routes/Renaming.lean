import Switchboard.Proofs.Pattern.Holes
import Switchboard.Proofs.Routes.Growth

namespace Switchboard

variable {α β : Type}

theorem Pattern.isWildcard_nameless (p : Pattern) : p.nameless.isWildcard = p.isWildcard := by
  cases p <;> rfl

namespace Route

variable {r : Route α} {q : Route β} {vs : List Value}

theorem accepts_iff_nameless :
    r.Accepts vs ↔ r.pattern.nameless.list?.isSome ∧ r.pattern.nameless.Accepts (.list vs) := by
  rw [accepts_iff, Pattern.nameless, Pattern.accepts_refilled, Pattern.list?_refilled,
    Option.isSome_map]
  refine and_congr_left fun _ => ?_
  cases r.pattern <;> simp [Pattern.list?]

theorem accepts_iff_of_nameless_eq (h : r.pattern.nameless = q.pattern.nameless) :
    r.Accepts vs ↔ q.Accepts vs := by
  rw [accepts_iff_nameless, accepts_iff_nameless, h]

theorem openPlaces_eq_of_nameless_eq (h : r.pattern.nameless = q.pattern.nameless) :
    r.openPlaces = q.openPlaces :=
  Pattern.places_isOpen_of_nameless_eq h

end Route

namespace Routes

def shapes (rs : Routes α) : List Pattern :=
  rs.routes.map (·.pattern.nameless)

-- What becomes of a list in two tables. Either routes at the same position take it, and what they
-- are given is the same but for what only one of them has a name for, or it falls through in both.
inductive Parallel (rs : Routes α) (qs : Routes β) (vs : List Value) : Choice α → Choice β → Prop
  | taken {i : Nat}
    (left   : rs.routes[i]? = some r)
    (right  : qs.routes[i]? = some q)
    (takes  : rs.Takes vs r ∧ qs.Takes vs q)
    (bound  : args.map some = r.namePlaces.map (Value.list vs).at? ∧
      args'.map some = q.namePlaces.map (Value.list vs).at?)
    (shared : r.pattern.shared q.pattern args = q.pattern.shared r.pattern args')
    (same   : r.pattern.uniform = q.pattern.uniform → args = args') :
    Parallel rs qs vs (.route r args) (.route q args')
  | fallen
    (left  : ∀ r ∈ rs.routes, ¬r.Accepts vs)
    (right : ∀ q ∈ qs.routes, ¬q.Accepts vs)
    (alike : rs.fallback?.isSome = qs.fallback?.isSome) :
    Parallel rs qs vs rs.fallback qs.fallback

variable {rs : Routes α} {qs : Routes β} {r : Route α} {q : Route β} {vs : List Value}

theorem isSome_fallback?_eq_any : rs.fallback?.isSome = rs.shapes.any Pattern.isWildcard := by
  have hw : Pattern.isWildcard ∘ (·.pattern.nameless) = Route.isFallback (α := α) :=
    funext fun r => r.pattern.isWildcard_nameless
  rw [Bool.eq_iff_iff, isSome_fallback?_iff, shapes, List.any_map, hw, List.any_eq_true]
  constructor
  case mp =>
    intro ⟨k, hk, hs⟩
    have ⟨r, hr, he⟩ := mem_keys_iff.mp hk
    exact ⟨r, hr, by rwa [Route.isFallback_eq, he]⟩
  case mpr =>
    intro ⟨r, hr, hs⟩
    exact ⟨r.key, mem_keys hr, Route.isFallback_eq ▸ hs⟩

theorem not_accepts_of_shapes_eq (h : rs.shapes = qs.shapes)
    (hn : ∀ r ∈ rs.routes, ¬r.Accepts vs) : ∀ q ∈ qs.routes, ¬q.Accepts vs := by
  intro q hq ha
  have hs : q.pattern.nameless ∈ rs.shapes := h ▸ List.mem_map_of_mem hq
  have ⟨r, hr, he⟩ := List.mem_map.mp hs
  exact hn r hr ((Route.accepts_iff_of_nameless_eq he).mpr ha)

-- Routes at the same position are as open as each other, so that no tie is broken another way.
theorem Takes.exists_of_shapes_eq (h : rs.shapes = qs.shapes) (ht : rs.Takes vs r) :
    ∃ (i : Nat) (q : Route β), rs.routes[i]? = some r ∧ qs.routes[i]? = some q ∧
      r.pattern.nameless = q.pattern.nameless ∧ qs.Takes vs q := by
  have ⟨as, bs, hs, ha, hb, hl⟩ := ht
  rw [shapes, shapes, hs, List.map_append, List.map_cons] at h
  have ⟨as', qs', hs', has, hqs⟩ := List.map_eq_append_iff.mp h.symm
  have ⟨q, bs', hc, hq, hbs⟩ := List.map_eq_cons_iff.mp hqs
  have hn : as'.length = as.length := by simpa using congrArg List.length has
  refine ⟨as.length, q, by simp [hs], by simp [hs', hc, ← hn], hq.symm, as', bs', ?_, ?_, ?_, ?_⟩
  · rw [hs', hc]
  · exact (Route.accepts_iff_of_nameless_eq hq).mpr ha
  · intro a' hm ha'
    have ⟨a, hm, he⟩ := List.mem_map.mp (has ▸ List.mem_map_of_mem hm)
    rw [Route.openPlaces_eq_of_nameless_eq hq, ← Route.openPlaces_eq_of_nameless_eq he]
    exact hb a hm ((Route.accepts_iff_of_nameless_eq he).mpr ha')
  · intro b' hm hb'
    have ⟨b, hm, he⟩ := List.mem_map.mp (hbs ▸ List.mem_map_of_mem hm)
    rw [Route.openPlaces_eq_of_nameless_eq hq, ← Route.openPlaces_eq_of_nameless_eq he]
    exact hl b hm ((Route.accepts_iff_of_nameless_eq he).mpr hb')

-- The names of one table may be all different and those of the other all the same, so that a name
-- that is repeated does not ask for equal values.
theorem parallel_matchList (h : rs.shapes = qs.shapes) (vs : List Value) :
    Parallel rs qs vs (rs.matchList vs) (qs.matchList vs) := by
  have hr := routed_matchList rs vs
  have hq := routed_matchList qs vs
  by_cases hn : ∀ r ∈ rs.routes, ¬r.Accepts vs
  case pos =>
    have hn' := not_accepts_of_shapes_eq h hn
    rw [hr.eq_fallback hn, hq.eq_fallback hn']
    exact .fallen hn hn' (by rw [isSome_fallback?_eq_any, h, isSome_fallback?_eq_any])
  case neg =>
    have hn' := fun hn' => hn (not_accepts_of_shapes_eq h.symm hn')
    generalize rs.matchList vs = c at hr
    generalize qs.matchList vs = d at hq
    cases hr <;> cases hq
    case taken.taken r args hr ha q args' hq hb =>
      have ⟨i, q', hi, hi', he, hq'⟩ := hr.exists_of_shapes_eq h
      cases hq.unique hq'
      have hs := Pattern.shared_comm he ha hb
      exact .taken hi hi' ⟨hr, hq⟩ ⟨ha, hb⟩ hs fun hu => Pattern.eq_of_uniform_eq hu ha hb
    case taken.fallen hf _     => exact absurd hf hn'
    case taken.unanswered hf _ => exact absurd hf hn'
    all_goals exact absurd ‹∀ r ∈ rs.routes, _› hn

-- The second routes take the list. The name `a` is repeated in one table only.
theorem parallel_matchList_repeated :
    (ofList [("[[x, _], \"y\"]", 0), ("[a, [a, a]]", 1), ("_", 2)]).shapes =
        (ofList [("[[_, x], \"y\"]", "u"), ("[a, [b, _]]", "v"), (" _ ", "w")]).shapes ∧
      Parallel (ofList [("[[x, _], \"y\"]", 0), ("[a, [a, a]]", 1), ("_", 2)])
        (ofList [("[[_, x], \"y\"]", "u"), ("[a, [b, _]]", "v"), (" _ ", "w")])
        [.int 1, .list [.int 2, .int 3]]
        ((ofList [("[[x, _], \"y\"]", 0), ("[a, [a, a]]", 1), ("_", 2)]).matchList
          [.int 1, .list [.int 2, .int 3]])
        ((ofList [("[[_, x], \"y\"]", "u"), ("[a, [b, _]]", "v"), (" _ ", "w")]).matchList
          [.int 1, .list [.int 2, .int 3]]) :=
  ⟨by decide +kernel, parallel_matchList (by decide +kernel) _⟩

end Routes

end Switchboard
