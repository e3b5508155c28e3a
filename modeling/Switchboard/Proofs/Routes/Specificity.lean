import Switchboard.Proofs.Routes.Selection

namespace Switchboard

variable {α : Type}

namespace Pattern

-- Some list of `p` that has holes stands where `q` has a hole.
def Spreads (p q : Pattern) : Prop :=
  ∃ is hole ps, q.at? is = some hole ∧ hole.isOpen ∧ p.at? is = some (list ps) ∧ 0 < opennessAll ps

def Within (p q : Pattern) : Prop :=
  ∀ v, p.Accepts v → q.Accepts v

def WithinAll (ps qs : List Pattern) : Prop :=
  ∀ vs, List.Forall₂ Accepts ps vs → List.Forall₂ Accepts qs vs

variable {p q : Pattern} {ps qs : List Pattern} {l : Literal} {v : Value} {vs : List Value}
variable {i : Nat}

theorem spreads_of_isOpen (hq : q.isOpen) (ho : 0 < opennessAll ps) : (list ps).Spreads q :=
  ⟨[], q, ps, rfl, hq, rfl, ho⟩

theorem Spreads.list (hp : ps[i]? = some p) (hq : qs[i]? = some q) :
    p.Spreads q → (list ps).Spreads (list qs)
  | ⟨is, hole, rs, ha, ho, hb, hr⟩ =>
    ⟨i :: is, hole, rs, by simp [at?, hq, ha], ho, by simp [at?, hp, hb], hr⟩

theorem openness_of_isOpen (h : q.isOpen) : q.openness = 1 := by
  cases q <;> simp_all [isOpen, openness]

theorem forall₂_accepts_of_isOpen (h : ∀ p ∈ ps, p.isOpen) (hl : ps.length = vs.length) :
    List.Forall₂ Accepts ps vs :=
  List.forall₂_iff_get.mpr ⟨hl, fun _ hi _ => accepts_of_isOpen (h _ (List.get_mem ps ⟨_, hi⟩)) _⟩

theorem accepts_source (l : Literal) : (literal l).Accepts (.text l.source) :=
  .literal (by simp [Literal.accepts])

theorem eq_literal_of_within (hv : p.Accepts v) (h : p.Within (literal l)) : p = literal l := by
  cases hv
  case wildcard =>
    cases h .null .wildcard
    case literal hl => cases hl
  case name =>
    cases h .null .name
    case literal hl => cases hl
  case literal k _ =>
    cases h _ (accepts_source k)
    case literal hl => rw [Literal.ext_source (beq_iff_eq.mp hl)]
  case list hs =>
    cases h _ (.list hs)
    case literal hl => cases hl

theorem eq_list_of_within (hv : p.Accepts v) (h : p.Within (list qs)) : ∃ ps, p = list ps := by
  cases hv
  case wildcard  => cases h .null .wildcard
  case name      => cases h .null .name
  case literal k _ => cases h _ (accepts_source k)
  case list ps _ _ => exact ⟨ps, rfl⟩

theorem not_within_cells (hv : p.Accepts v) : ¬p.Within (cells qs) := by
  intro h
  cases h v hv

theorem WithinAll.head (h : WithinAll (p :: ps) (q :: qs)) (hs : List.Forall₂ Accepts ps vs) :
    p.Within q :=
  fun v hv => (List.forall₂_cons.mp (h (v :: vs) (.cons hv hs))).left

theorem WithinAll.tail (h : WithinAll (p :: ps) (q :: qs)) (hv : p.Accepts v) : WithinAll ps qs :=
  fun vs hs => (List.forall₂_cons.mp (h (v :: vs) (.cons hv hs))).right

-- A hole accepts everything, so that whatever is as open as a hole is one, unless it spreads.
theorem openness_le_of_isOpen (hq : q.isOpen) (hv : p.Accepts v) (hn : ¬p.Spreads q) :
    p.openness ≤ q.openness ∧ (q.openness ≤ p.openness → q.Within p) := by
  rw [openness_of_isOpen hq]
  cases hv
  case wildcard  => exact ⟨Nat.le_refl 1, fun _ v _ => .wildcard⟩
  case name      => exact ⟨Nat.le_refl 1, fun _ v _ => .name⟩
  case literal   => exact ⟨Nat.zero_le 1, nofun⟩
  case list ps _ _ =>
    have ho : opennessAll ps = 0 := Nat.eq_zero_of_not_pos fun ho => hn (spreads_of_isOpen hq ho)
    simp [openness, ho]

mutual

-- A pattern within another is at most as open if it does not spread, and if it is as open then it
-- accepts all that the other accepts.
theorem openness_le_of_within : ∀ (p q : Pattern) {v : Value}, p.Accepts v → p.Within q →
    ¬p.Spreads q → p.openness ≤ q.openness ∧ (q.openness ≤ p.openness → q.Within p)
  | p, wildcard, v, hv, _, hn => openness_le_of_isOpen rfl hv hn
  | p, name n, v, hv, _, hn => openness_le_of_isOpen rfl hv hn
  | p, literal l, v, hv, h, _ => by
    rw [eq_literal_of_within hv h]
    exact ⟨Nat.le_refl _, fun _ _ hv => hv⟩
  | p, cells qs, v, hv, h, _ => absurd h (not_within_cells hv)
  | list ps, list qs, v, hv, h, hn => by
    cases hv
    case list vs hs =>
      have hi : WithinAll ps qs := fun us hu => by
        cases h _ (.list hu)
        assumption
      have ⟨hl, hb⟩ := opennessAll_le_of_withinAll ps qs hs hi fun i p q hp hq hs =>
        hn (.list hp hq hs)
      refine ⟨hl, fun ho u hu => ?_⟩
      cases hu
      case list hu => exact .list (hb ho _ hu)
  | wildcard, list qs, v, hv, h, _ | name n, list qs, v, hv, h, _ | literal l, list qs, v, hv, h, _
  | cells ps, list qs, v, hv, h, _ => by
    have ⟨_, hp⟩ := eq_list_of_within hv h
    cases hp

theorem opennessAll_le_of_withinAll : ∀ (ps qs : List Pattern) {vs : List Value},
    List.Forall₂ Accepts ps vs → WithinAll ps qs →
    (∀ (i : Nat) (p q : Pattern), ps[i]? = some p → qs[i]? = some q → ¬p.Spreads q) →
    opennessAll ps ≤ opennessAll qs ∧ (opennessAll qs ≤ opennessAll ps → WithinAll qs ps)
  | [], [], _, _, _, _ => ⟨Nat.le_refl _, fun _ _ h => h⟩
  | [], _ :: _, _, hs, h, _ | _ :: _, [], _, hs, h, _ => absurd (h _ hs) (by cases hs; nofun)
  | p :: ps, q :: qs, _, .cons hv hs, h, hn => by
    have ⟨hl, hb⟩ := openness_le_of_within p q hv (h.head hs) (hn 0 p q rfl rfl)
    have ⟨hl', hb'⟩ := opennessAll_le_of_withinAll ps qs hs (h.tail hv) fun i => hn (i + 1)
    rw [opennessAll, opennessAll]
    refine ⟨Nat.add_le_add hl hl', fun ho us hu => ?_⟩
    cases hu
    case cons hu hus => exact .cons (hb (by omega) _ hu) (hb' (by omega) _ hus)

end

end Pattern

namespace Route

structure Narrower (p q : Route α) : Prop where
  within : ∀ vs, p.Accepts vs → q.Accepts vs
  strict : ∃ vs, q.Accepts vs ∧ ¬p.Accepts vs

variable {p q r : Route α} {ps qs : List Pattern} {us vs : List Value}

theorem accepts_iff_of_pattern_eq (hp : r.pattern = .list ps) :
    r.Accepts vs ↔ List.Forall₂ Pattern.Accepts ps vs := by
  simp [Accepts, hp]

theorem accepts_iff_pattern_accepts (h : r.Accepts vs) :
    r.Accepts us ↔ r.pattern.Accepts (.list us) := by
  have ⟨ps, hp, _⟩ := h
  rw [accepts_iff_of_pattern_eq hp, hp]
  constructor
  case mp  => exact .list
  case mpr =>
    intro hu
    cases hu
    assumption

theorem within_iff (hp : p.Accepts vs) (hq : q.Accepts vs) :
    p.pattern.Within q.pattern ↔ ∀ us, p.Accepts us → q.Accepts us := by
  simp only [accepts_iff_pattern_accepts hp, accepts_iff_pattern_accepts hq]
  constructor
  case mp  => exact fun h us => h (.list us)
  case mpr =>
    intro h v hv
    have ⟨ps, he, _⟩ := hp
    have hl := he ▸ hv
    cases hl
    exact h _ hv

theorem narrower_of_isOpen (hp : p.pattern = .list ps) (hq : q.pattern = .list qs)
    (ho : ∀ h ∈ qs, h.isOpen) (hl : ps.length = qs.length)
    (hv : vs.length = qs.length) (hn : ¬p.Accepts vs) : p.Narrower q where
  within us hu := by
    have hu := ((accepts_iff_of_pattern_eq hp).mp hu).length_eq
    exact (accepts_iff_of_pattern_eq hq).mpr (Pattern.forall₂_accepts_of_isOpen ho (hl ▸ hu))
  strict :=
    have ha := Pattern.forall₂_accepts_of_isOpen ho hv.symm
    ⟨vs, (accepts_iff_of_pattern_eq hq).mpr ha, hn⟩

theorem Narrower.openPlaces_length_lt (h : p.Narrower q) (ha : p.Accepts vs)
    (hn : ¬p.pattern.Spreads q.pattern) : p.openPlaces.length < q.openPlaces.length := by
  have hq := h.within vs ha
  have hb := (Pattern.openness_le_of_within _ _ ((accepts_iff_pattern_accepts ha).mp ha)
    ((within_iff ha hq).mpr h.within) hn).right
  rw [openPlaces, openPlaces, ← Pattern.openness_eq_length_places,
    ← Pattern.openness_eq_length_places]
  refine Nat.lt_of_not_le fun hl => ?_
  cases h.strict
  case intro us hu => exact hu.right ((within_iff hq ha).mp (hb hl) us hu.left)

end Route

namespace Routes

def Precedes (rs : Routes α) (p q : Route α) : Prop :=
  ∃ as bs, rs.routes = as ++ q :: bs ∧ p ∈ as

def FavoursNarrower (rs : Routes α) (vs : List Value) : Prop :=
  ∀ p ∈ rs.routes, ∀ q ∈ rs.routes, p.Accepts vs → q.Accepts vs → p.Narrower q →
    ∀ args, rs.matchList vs ≠ .route q args

-- A list with two names in it stands where the other pattern has one.
theorem not_favoursNarrower_nested :
    ¬(ofList [("[x]", 0), ("[[a, b]]", 1)]).FavoursNarrower [.list [.int 1, .int 2]] := by
  have hq : (Route.make "[x]" 0).pattern = .list [.name "x"] := by decide +kernel
  have hp : (Route.make "[[a, b]]" 1).pattern = .list [.list [.name "a", .name "b"]] := by
    decide +kernel
  have ha : (Route.make "[[a, b]]" 1).Accepts [.list [.int 1, .int 2]] :=
    ⟨_, hp, .cons (.list (.cons .name (.cons .name .nil))) .nil⟩
  have hr : ¬(Route.make "[[a, b]]" 1).Accepts [.null] := by
    rw [Route.accepts_iff_of_pattern_eq hp, ← Pattern.isSome_bindAll?_iff]
    decide
  have hn : (Route.make "[[a, b]]" 1).Narrower (.make "[x]" 0) :=
    Route.narrower_of_isOpen hp hq (by simp [Pattern.isOpen]) rfl rfl hr
  have ht : (ofList [("[x]", 0), ("[[a, b]]", 1)]).Takes [.list [.int 1, .int 2]]
      (.make "[x]" 0) := by
    refine ⟨[], [.make "[[a, b]]" 1], rfl, hn.within _ ha, nofun, fun b hm _ => ?_⟩
    cases List.mem_singleton.mp hm
    decide +kernel
  have hx : [Value.list [.int 1, .int 2]].map some = (Route.make "[x]" 0).namePlaces.map
      (Value.list [.list [.int 1, .int 2]]).at? := by
    rw [Route.namePlaces, hq]
    rfl
  intro h
  exact h _ (.tail _ (.head _)) _ (.head _) ha (hn.within _ ha) hn _
    ((routed_matchList _ _).unique (.taken ht hx))

variable {rs : Routes α} {p q : Route α} {vs args : List Value}

theorem Takes.openPlaces_length_le (h : rs.Takes vs q) (hp : p ∈ rs.routes) (ha : p.Accepts vs) :
    q.openPlaces.length ≤ p.openPlaces.length := by
  have ⟨as, bs, hs, _, hb, hl⟩ := h
  rw [hs, List.mem_append, List.mem_cons] at hp
  rcases hp with hp | rfl | hp
  · exact Nat.le_of_lt (hb p hp ha)
  · exact Nat.le_refl _
  · exact hl p hp ha

theorem Takes.openPlaces_length_lt (h : rs.Takes vs q) (hp : rs.Precedes p q) (ha : p.Accepts vs) :
    q.openPlaces.length < p.openPlaces.length := by
  have ⟨as, bs, hs, _, hb, _⟩ := h
  have ⟨as', bs', hs', hm⟩ := hp
  have hr := List.Nodup.of_map _ rs.distinct
  rw [hs, List.nodup_middle, List.nodup_cons, List.mem_append, not_or] at hr
  have ⟨⟨has, hbs⟩, _⟩ := hr
  have ⟨he, _⟩ := (List.append_cons_inj_of_notMem has hbs).mp (hs.symm.trans hs')
  exact hb p (he ▸ hm) ha

theorem takes_of_matchList_eq_route (h : rs.matchList vs = .route q args) (hp : p ∈ rs.routes)
    (ha : p.Accepts vs) : rs.Takes vs q := by
  have hr := h ▸ routed_matchList rs vs
  cases hr
  case taken ht _  => exact ht
  case fallen hn _ => exact absurd ha (hn p hp)

-- A narrower route that accepts a list keeps it from the wider one if it does not spread. If it
-- does, then it must still be less open, or as open and declared first.
theorem matchList_ne_route_of_narrower (hp : p ∈ rs.routes) (ha : p.Accepts vs) (hn : p.Narrower q)
    (ho : ¬p.pattern.Spreads q.pattern ∨ p.openPlaces.length < q.openPlaces.length ∨
      p.openPlaces.length = q.openPlaces.length ∧ rs.Precedes p q) :
    ∀ args, rs.matchList vs ≠ .route q args := by
  intro args h
  have ht := takes_of_matchList_eq_route h hp ha
  have hl := ht.openPlaces_length_le hp ha
  rcases ho with hs | ho | ⟨ho, hd⟩
  · exact absurd (hn.openPlaces_length_lt ha hs) (Nat.not_lt.mpr hl)
  · exact absurd ho (Nat.not_lt.mpr hl)
  · exact absurd (ht.openPlaces_length_lt hd ha) (by simp [ho])

theorem matchList_ne_route_of_narrower_literal :
    (Route.make "[\"a\"]" 1).Narrower (.make "[x]" 0) ∧
      ∀ args, (ofList [("[x]", 0), ("[\"a\"]", 1)]).matchList [.text "a"] ≠
        .route (.make "[x]" 0) args := by
  have hq : (Route.make "[x]" 0).pattern = .list [.name "x"] := by decide +kernel
  have hp : (Route.make "[\"a\"]" 1).pattern = .list [.literal (.ofText "a")] := by
    decide +kernel
  have ha : (Route.make "[\"a\"]" 1).Accepts [.text "a"] := ⟨_, hp, .cons (.literal rfl) .nil⟩
  have hr : ¬(Route.make "[\"a\"]" 1).Accepts [.null] := by
    rw [Route.accepts_iff_of_pattern_eq hp, ← Pattern.isSome_bindAll?_iff]
    decide
  have hn : (Route.make "[\"a\"]" 1).Narrower (.make "[x]" 0) :=
    Route.narrower_of_isOpen hp hq (by simp [Pattern.isOpen]) rfl rfl hr
  exact ⟨hn, matchList_ne_route_of_narrower (.tail _ (.head _)) ha hn
    (.inr (.inl (by decide +kernel)))⟩

end Routes

end Switchboard
