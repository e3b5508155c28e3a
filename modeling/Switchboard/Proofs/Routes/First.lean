import Switchboard.Proofs.Routes.Arguments

namespace Switchboard

namespace Pattern

variable {p : Pattern}

theorem literal?_eq_some_iff {l : Literal} : p.literal? = some l ↔ p = literal l := by
  cases p <;> simp [literal?]

theorem name?_eq_some_iff {n : String} : p.name? = some n ↔ p = name n := by
  cases p <;> simp [name?]

end Pattern

variable {α : Type}

namespace Route

def suitsScalar (v : Value) (r : Route α) : Bool :=
  !v.isEmptyScalar && r.pattern.literal?.any (·.accepts v)

def suitsObject (registry : Registry) (o : Object) (r : Route α) : Bool :=
  r.pattern.name?.any fun n => registry.contains n && n == o.typeName

def suits (registry : Registry) : Value → Route α → Bool
  | .object o => suitsObject registry o
  | v         => suitsScalar v

def suitsArguments (args : List Value) (r : Route α) : Bool :=
  r.pattern.arity == args.length

variable {r : Route α} {v : Value} {registry : Registry} {o : Object}

theorem suitsScalar_iff :
    r.suitsScalar v ↔
      v.isEmptyScalar = false ∧ ∃ l, r.pattern.literal? = some l ∧ l.accepts v := by
  simp [suitsScalar, Option.any_eq_true]

theorem isFallback_of_suitsScalar (h : r.suitsScalar v) : r.isFallback = false := by
  have ⟨_, l, hl, _⟩ := suitsScalar_iff.mp h
  cases hp : r.pattern <;> simp_all [isFallback, Pattern.isWildcard, Pattern.literal?]

theorem suitsObject_iff :
    r.suitsObject registry o ↔
      registry.contains o.typeName ∧ r.pattern.name? = some o.typeName := by
  cases hn : r.pattern.name?
  case none   => simp [suitsObject, hn]
  case some n =>
    simp only [suitsObject, hn, Option.any_some, Bool.and_eq_true, beq_iff_eq, Option.some.injEq]
    exact and_congr_left fun h => by rw [h]

end Route

namespace Routes

def first (rs : Routes α) (suits : Route α → Bool) (args : List Value) : Choice α :=
  match rs.competing.find? suits with
  | some r => .route r args
  | none   => rs.fallback

variable {rs : Routes α} {r : Route α} {suits : Route α → Bool} {args : List Value}
variable {registry : Registry} {v : Value} {n : Nat}

theorem find?_filter_of_imp {p q : Route α → Bool} {qs : List (Route α)} (h : ∀ r, p r → q r) :
    (qs.filter q).find? p = qs.find? p := by
  rw [List.find?_filter]
  congr 1
  funext r
  have := h r
  cases hp : p r <;> simp_all

theorem find?_competing_of_imp (h : ∀ r, suits r → r.isFallback = false) :
    rs.competing.find? suits = rs.routes.find? suits :=
  find?_filter_of_imp fun r hr => by simp [h r hr]

theorem first_eq_route (h : rs.competing.find? suits = some r) :
    rs.first suits args = .route r args := by
  simp [first, h]

theorem first_eq_fallback (h : ∀ r ∈ rs.competing, ¬suits r) :
    rs.first suits args = rs.fallback := by
  simp [first, List.find?_eq_none.mpr h]

theorem match_find?_eq_first :
    (match rs.competing.find? suits with
      | some r => rs.invoke r.key args
      | none   => rs.fallback) = rs.first suits args := by
  rw [first]
  split
  case h_1 r hr => exact invoke_of_find?_eq_some hr
  case h_2      => rfl

theorem matchScalar_eq_first (rs : Routes α) (v : Value) :
    rs.matchScalar v = rs.first (Route.suitsScalar v) [] := by
  rw [matchScalar]
  split
  case isTrue h =>
    have hn : ∀ r ∈ rs.competing, ¬r.suitsScalar v := fun r _ => by simp [Route.suitsScalar, h]
    exact (first_eq_fallback hn).symm
  case isFalse h =>
    have hf : (fun r : Route α => r.pattern.literal?.any (·.accepts v)) = Route.suitsScalar v := by
      funext r
      simp [Route.suitsScalar, h]
    rw [hf]
    exact match_find?_eq_first

theorem matchObject_eq_first (rs : Routes α) (registry : Registry) (o : Object) :
    rs.matchObject registry o = rs.first (Route.suitsObject registry o) [] :=
  match_find?_eq_first

theorem matchIn_eq_first (h : v.list? = none) :
    rs.matchIn registry v = rs.first (Route.suits registry v) [] := by
  cases v
  case list   => cases h
  case object => exact matchObject_eq_first rs registry _
  all_goals exact matchScalar_eq_first rs _

theorem fallback_of_routes_eq_singleton (h : rs.routes = [r]) (hf : r.isFallback) :
    rs.fallback = .route r [] := by
  have hs : rs.fallback?.isSome := by
    rw [isSome_fallback?_iff]
    exact ⟨r.key, mem_keys (by simp [h]), Route.isFallback_eq ▸ hf⟩
  have ⟨q, hq⟩ := Option.isSome_iff_exists.mp hs
  have hm := mem_of_fallback?_eq_some hq
  simp only [h, List.mem_singleton] at hm
  simp [fallback, hq, hm]

theorem dispatch_eq_first (rs : Routes α) (args : List Value) :
    rs.dispatch args = rs.first (Route.suitsArguments args) args := by
  rw [dispatch]
  rcases ArityIndex.firstWith?_ofRoutes rs args.length with h | ⟨r, hr, hf, ha, h⟩
  case inl =>
    have hk : (ArityIndex.ofRoutes rs).firstWith? args.length =
        (rs.competing.find? (Route.suitsArguments args)).map Route.key := h
    cases hc : rs.competing.find? (Route.suitsArguments args)
    case none   => simp [hk, hc, first]
    case some r =>
      have hm := mem_of_mem_competing (List.mem_of_find?_eq_some hc)
      simp [hk, hc, first_eq_route hc, invoke_eq_route hm]
  case inr =>
    have hn : ∀ q ∈ rs.competing, ¬q.suitsArguments args := by simp [competing, hr, hf]
    cases List.length_eq_zero_iff.mp ha
    rw [h, first_eq_fallback hn, fallback_of_routes_eq_singleton hr hf]
    exact invoke_eq_route (by simp [hr])

end Routes

end Switchboard
