import Switchboard.Proofs.Routes.First

namespace Switchboard

variable {α : Type}

def Choice.outcome : Choice α → Option (α × List Value)
  | route r args => some (r.handler, args)
  | unanswered   => none

namespace Route

def entry (r : Route α) : String × α :=
  (r.key, r.handler)

-- The pattern is of the kind that the value asks for. What it looks like inside does not matter.
def isRelevant (r : Route α) : Value → Bool
  | .list vs  => r.pattern.list?.any (·.length == vs.length)
  | .object _ => r.pattern.name?.isSome
  | _         => r.pattern.literal?.isSome

def isCells (r : Route α) : Bool :=
  match r.pattern with
  | .cells _ => true
  | _        => false

variable {r : Route α} {v : Value} {registry registry' : Registry}

theorem entry_injective : Function.Injective (entry : Route α → String × α) := by
  intro ⟨j, p, f, hp⟩ ⟨k, q, g, hq⟩ h
  cases h
  cases hp
  cases hq
  rfl

theorem isFallback_of_isRelevant (h : r.isRelevant v) : r.isFallback = false := by
  cases hp : r.pattern
  case wildcard =>
    cases v <;> simp [isRelevant, hp, Pattern.list?, Pattern.name?, Pattern.literal?] at h
  all_goals simp [isFallback, hp, Pattern.isWildcard]

theorem isCells_of_isRelevant (h : r.isRelevant v) : r.isCells = false := by
  cases hp : r.pattern
  case cells =>
    cases v <;> simp [isRelevant, hp, Pattern.list?, Pattern.name?, Pattern.literal?] at h
  all_goals simp [isCells, hp]

theorem isCells_of_isFallback (h : r.isFallback) : r.isCells = false := by
  rw [isCells, Pattern.eq_wildcard_of_isWildcard h]

theorem isRelevant_of_suits (h : r.suits registry v) : r.isRelevant v := by
  cases v
  case object o =>
    have ⟨_, hn⟩ := suitsObject_iff.mp h
    simp [isRelevant, hn]
  case list vs =>
    have ⟨_, l, _, hl⟩ := suitsScalar_iff.mp h
    cases hl
  all_goals
    have ⟨_, l, hl, _⟩ := suitsScalar_iff.mp h
    simp [isRelevant, hl]

theorem Accepts.isRelevant {vs : List Value} (h : r.Accepts vs) : r.isRelevant (.list vs) := by
  have ⟨ps, hp, ha⟩ := h
  simp [Route.isRelevant, hp, Pattern.list?, ha.length_eq]

-- A name suits an object only if it names the object's type, so no other name is looked up.
theorem suits_congr
    (h : ∀ o, v = .object o → registry.contains o.typeName = registry'.contains o.typeName) :
    r.suits registry v = r.suits registry' v := by
  cases v
  case object o =>
    have hc := h o rfl
    rw [Bool.eq_iff_iff]
    exact suitsObject_iff.trans (hc ▸ suitsObject_iff.symm)
  all_goals rfl

end Route

namespace Routes

def relevant (rs : Routes α) (v : Value) : List (Route α) :=
  rs.routes.filter (·.isRelevant v)

variable {rs qs : Routes α} {v : Value} {vs : List Value} {registry registry' : Registry}
variable {β : Type} {f : Choice α → β}

theorem find?_competing_eq_find?_relevant :
    rs.competing.find? (Route.suits registry v) =
      (rs.relevant v).find? (Route.suits registry v) := by
  rw [relevant, find?_filter_of_imp fun _ => Route.isRelevant_of_suits]
  exact find?_competing_of_imp fun _ h =>
    Route.isFallback_of_isRelevant (Route.isRelevant_of_suits h)

theorem filterMap_relevant :
    (rs.relevant (.list vs)).filterMap (Candidate.ofRoute? vs) =
      rs.routes.filterMap (Candidate.ofRoute? vs) :=
  filterMap_filter_of_accepts fun _ ha => ha.isRelevant

theorem apply_matchIn_congr (hr : rs.relevant v = qs.relevant v)
    (hf : f rs.fallback = f qs.fallback)
    (hg : ∀ o, v = .object o → registry.contains o.typeName = registry'.contains o.typeName) :
    f (rs.matchIn registry v) = f (qs.matchIn registry' v) := by
  cases hv : v.list?
  case none =>
    have hs : Route.suits (α := α) registry v = Route.suits registry' v :=
      funext fun _ => Route.suits_congr hg
    rw [matchIn_eq_first hv, matchIn_eq_first hv, first, first, hs,
      find?_competing_eq_find?_relevant, find?_competing_eq_find?_relevant, hr]
    split
    case h_1 => rfl
    case h_2 => exact hf
  case some vs =>
    cases v <;> cases hv
    simp only [matchIn, matchList_eq, ← filterMap_relevant, hr]
    split
    case h_1 => rfl
    case h_2 => exact hf

def withoutCells (rs : Routes α) : List (Route α) :=
  rs.routes.filter (!·.isCells)

theorem relevant_eq_filter_withoutCells :
    rs.relevant v = rs.withoutCells.filter (·.isRelevant v) := by
  rw [relevant, withoutCells, List.filter_filter]
  congr 1
  funext r
  cases hr : r.isRelevant v
  case false => rfl
  case true  => simp [Route.isCells_of_isRelevant hr]

theorem fallback?_eq_find?_withoutCells :
    rs.fallback? =
      (rs.withoutCells.find? (·.key == "_")).or (rs.withoutCells.find? Route.isFallback) := by
  rw [withoutCells, find?_filter_of_imp fun r h => ?key, find?_filter_of_imp fun r h => ?wildcard]
  case wildcard => simp [Route.isCells_of_isFallback h]
  case key =>
    have hf : r.isFallback := by
      rw [Route.isFallback_eq, beq_iff_eq.mp h]
      exact Text.spellsWildcard_underscore
    simp [Route.isCells_of_isFallback hf]
  rfl

theorem matchIn_eq_of_withoutCells_eq (h : rs.withoutCells = qs.withoutCells) :
    rs.matchIn registry v = qs.matchIn registry v := by
  have hr : rs.relevant v = qs.relevant v := by
    rw [relevant_eq_filter_withoutCells, relevant_eq_filter_withoutCells, h]
  have hf : rs.fallback = qs.fallback := by
    rw [fallback, fallback, fallback?_eq_find?_withoutCells, fallback?_eq_find?_withoutCells, h]
  exact apply_matchIn_congr (f := id) hr hf fun _ _ => rfl

-- Two tables with the same relevant keys and handlers in the same order, and with the same handler
-- to fall back to, run the same handler on the same arguments. The types that are known may differ
-- but for the type of the value. Chains of cells never matter.
theorem matchIn_ignores_foreign :
    (∀ (rs qs : Routes α) (registry registry' : Registry) (v : Value),
      (rs.relevant v).map Route.entry = (qs.relevant v).map Route.entry →
      rs.fallback.outcome = qs.fallback.outcome →
      (∀ o, v = .object o → registry.contains o.typeName = registry'.contains o.typeName) →
      (rs.matchIn registry v).outcome = (qs.matchIn registry' v).outcome) ∧
    ∀ (rs qs : Routes α) (registry : Registry) (v : Value),
      rs.withoutCells.map Route.entry = qs.withoutCells.map Route.entry →
      rs.matchIn registry v = qs.matchIn registry v := by
  constructor
  case left =>
    intro rs qs registry registry' v hr hf hg
    exact apply_matchIn_congr (Route.entry_injective.list_map hr) hf hg
  case right =>
    intro rs qs registry v h
    exact matchIn_eq_of_withoutCells_eq (Route.entry_injective.list_map h)

theorem matchIn_ignores_foreign_point :
    (((ofList [("Point", 0), ("\"Point\"", 1), ("(x:_)", 2), ("_", 3)]).matchIn
        (Registry.empty.register "Point") (.object ⟨0, "Point", .hidden⟩)).outcome =
      ((ofList [("[Point]", 4), ("_", 3), ("Point", 0)]).matchIn
        (Registry.builtin.register "Point") (.object ⟨0, "Point", .hidden⟩)).outcome) ∧
    (ofList [("Point", 0), ("\"Point\"", 1), ("(x:_)", 2), ("_", 3)]).matchIn
        Registry.builtin (.object ⟨0, "Point", .hidden⟩) =
      (ofList [("Point", 0), ("(Point:x)", 5), ("\"Point\"", 1), ("_", 3)]).matchIn
        Registry.builtin (.object ⟨0, "Point", .hidden⟩) := by
  constructor
  case left =>
    refine matchIn_ignores_foreign.left _ _ _ _ _ ?_ ?_ ?_
    · decide +kernel
    · rfl
    · intro o ho
      cases ho
      decide
  case right => exact matchIn_ignores_foreign.right _ _ _ _ (by decide +kernel)

end Routes

end Switchboard
