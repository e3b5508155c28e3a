import Switchboard.Proofs.Pattern.Places
import Switchboard.Proofs.Routes.Lookup

namespace Switchboard

variable {α : Type}

namespace Route

variable {r : Route α} {vs : List Value}

-- Only list patterns accept lists.
def Accepts (r : Route α) (vs : List Value) : Prop :=
  ∃ ps, r.pattern = .list ps ∧ List.Forall₂ Pattern.Accepts ps vs

def openPlaces (r : Route α) : List (List Nat) :=
  r.pattern.places Pattern.isOpen

def namePlaces (r : Route α) : List (List Nat) :=
  r.pattern.places Pattern.isName

theorem accepts_iff :
    r.Accepts vs ↔ (∃ ps, r.pattern = .list ps) ∧ r.pattern.Accepts (.list vs) := by
  constructor
  case mp =>
    intro ⟨ps, hp, h⟩
    exact ⟨⟨ps, hp⟩, hp ▸ .list h⟩
  case mpr =>
    intro ⟨⟨ps, hp⟩, h⟩
    exact ⟨ps, hp, Pattern.list_accepts_iff.mp (hp ▸ h)⟩

theorem Accepts.not_isFallback (h : r.Accepts vs) : r.isFallback = false := by
  have ⟨_, hp, _⟩ := h
  rw [isFallback, hp]
  rfl

end Route

theorem eq_or_mem_of_append_cons_eq {β : Type} {x y : β} {as bs as' bs' : List β}
    (h : as ++ x :: bs = as' ++ y :: bs') : x = y ∨ (x ∈ as' ∧ y ∈ bs) ∨ y ∈ as ∧ x ∈ bs' := by
  rcases List.append_eq_append_iff.mp h with ⟨cs, ha, hb⟩ | ⟨cs, ha, hb⟩ <;> cases cs <;> simp_all

namespace Candidate

variable {cs : List (Candidate α)} {c : Candidate α} {r : Route α} {vs : List Value}

theorem best?_eq_none_iff : best? cs = none ↔ cs = [] := by
  cases cs
  case nil => simp [best?]
  case cons c cs =>
    rw [best?]
    repeat' split
    all_goals simp

-- The best of a tail is below all of it, so the head only needs to be compared with that one.
theorem best?_eq_some (h : best? cs = some c) :
    ∃ as bs, cs = as ++ c :: bs ∧ (∀ a ∈ as, c.openness < a.openness) ∧
      ∀ b ∈ bs, c.openness ≤ b.openness := by
  induction cs generalizing c
  case nil => simp [best?] at h
  case cons d ds hi =>
    rw [best?] at h
    cases hb : best? ds
    case none =>
      rw [hb] at h
      cases h
      exact ⟨[], ds, rfl, nofun, by simp [best?_eq_none_iff.mp hb]⟩
    case some e =>
      simp only [hb] at h
      split at h
      case isTrue ho =>
        cases h
        have ⟨as, bs, hs, ha, hb⟩ := hi hb
        refine ⟨d :: as, bs, by rw [hs, List.cons_append], fun a hm => ?_, hb⟩
        cases hm
        case head    => exact ho
        case tail hm => exact ha a hm
      case isFalse ho =>
        cases h
        have ⟨as, bs, hs, ha, hb⟩ := hi hb
        have hd : d.openness ≤ e.openness := Nat.le_of_not_lt ho
        refine ⟨[], ds, rfl, nofun, fun b hm => ?_⟩
        rw [hs, List.mem_append, List.mem_cons] at hm
        rcases hm with hm | rfl | hm
        · exact Nat.le_trans hd (Nat.le_of_lt (ha b hm))
        · exact hd
        · exact Nat.le_trans hd (hb b hm)

theorem ofRoute?_eq_some (h : ofRoute? vs r = some c) :
    c.route = r ∧ r.Accepts vs ∧ c.openness = r.openPlaces.length ∧
      c.bound.map some = r.namePlaces.map (Value.list vs).at? := by
  rw [ofRoute?] at h
  split at h
  case h_1 ps hp =>
    obtain ⟨xs, hb, hc⟩ := Option.map_eq_some_iff.mp h
    have ha := (Pattern.isSome_bindAll?_iff ps vs).mp (Option.isSome_of_mem hb)
    cases hc
    refine ⟨rfl, ⟨ps, hp, ha⟩, ?_, ?_⟩
    · rw [Route.openPlaces, hp, Pattern.places, ← Pattern.opennessAll_eq_length_placesFrom]
    · rw [Route.namePlaces, hp]
      exact Pattern.map_some_of_bindAll? ps [] vs hb
  case h_2 => cases h

theorem exists_ofRoute?_eq (h : r.Accepts vs) :
    ∃ c, ofRoute? vs r = some c ∧ c.openness = r.openPlaces.length := by
  have ⟨ps, hp, ha⟩ := h
  have ⟨xs, hb⟩ := Option.isSome_iff_exists.mp ((Pattern.isSome_bindAll?_iff ps vs).mpr ha)
  have hc : ofRoute? vs r = some ⟨r, Pattern.opennessAll ps, xs⟩ := by
    rw [ofRoute?, hp]
    exact Option.map_eq_some_iff.mpr ⟨xs, hb, rfl⟩
  exact ⟨_, hc, (ofRoute?_eq_some hc).right.right.left⟩

end Candidate

namespace Routes

-- A route takes a list if none before it that accepts the list is as closed, and none after it is
-- more so.
inductive Takes (rs : Routes α) (vs : List Value) (r : Route α) : Prop
  | intro (as bs : List (Route α))
    (split   : rs.routes = as ++ r :: bs)
    (accepts : r.Accepts vs)
    (before  : ∀ a ∈ as, a.Accepts vs → r.openPlaces.length < a.openPlaces.length)
    (after   : ∀ b ∈ bs, b.Accepts vs → r.openPlaces.length ≤ b.openPlaces.length)

-- What becomes of a list: the route that takes it is given what stands at the places of its names.
-- If no route accepts it, then the fallback is run on nothing if there is one.
inductive Routed (rs : Routes α) (vs : List Value) : Choice α → Prop
  | taken (ht : rs.Takes vs r) (ha : args.map some = r.namePlaces.map (Value.list vs).at?) :
    Routed rs vs (.route r args)
  | fallen (hn : ∀ r ∈ rs.routes, ¬r.Accepts vs) (hf : rs.fallback? = some r) :
    Routed rs vs (.route r [])
  | unanswered (hn : ∀ r ∈ rs.routes, ¬r.Accepts vs)
    (hf : ∀ k ∈ rs.keys, ¬Text.spellsWildcard k) :
    Routed rs vs .unanswered

variable {rs : Routes α} {r q : Route α} {vs args : List Value} {c d : Choice α}

theorem Takes.mem (h : rs.Takes vs r) : r ∈ rs.routes := by
  cases h
  case intro as bs hs _ _ _ => simp [hs]

theorem Takes.accepts (h : rs.Takes vs r) : r.Accepts vs := by
  cases h
  assumption

-- Of two routes that each take a list and accept the other's, the later one would be less open than
-- the earlier one, and the earlier one at most as open.
theorem Takes.eq_of_accepts {us : List Value} (hr : rs.Takes vs r) (hq : rs.Takes us q)
    (hr' : r.Accepts us) (hq' : q.Accepts vs) : r = q := by
  have ⟨as, bs, hs, har, hbr, har'⟩ := hr
  have ⟨as', bs', hs', haq, hbq, haq'⟩ := hq
  rcases eq_or_mem_of_append_cons_eq (hs.symm.trans hs') with he | ⟨hm, hm'⟩ | ⟨hm, hm'⟩
  · exact he
  · exact absurd (hbq r hm hr') (Nat.not_lt.mpr (har' q hm' hq'))
  · exact absurd (hbr q hm hq') (Nat.not_lt.mpr (haq' r hm' hr'))

theorem Takes.unique (hr : rs.Takes vs r) (hq : rs.Takes vs q) : r = q :=
  hr.eq_of_accepts hq hr.accepts hq.accepts

theorem filterMap_filter_of_accepts {p : Route α → Bool} {qs : List (Route α)}
    (h : ∀ r, r.Accepts vs → p r) :
    (qs.filter p).filterMap (Candidate.ofRoute? vs) = qs.filterMap (Candidate.ofRoute? vs) := by
  rw [List.filterMap_filter]
  congr 1
  funext r
  cases hc : Candidate.ofRoute? vs r
  case none   => simp
  case some c => simp [h r (Candidate.ofRoute?_eq_some hc).right.left]

theorem filterMap_competing :
    rs.competing.filterMap (Candidate.ofRoute? vs) =
      rs.routes.filterMap (Candidate.ofRoute? vs) :=
  filterMap_filter_of_accepts fun r ha => by simp [ha.not_isFallback]

theorem takes_of_best?_eq_some {c : Candidate α}
    (h : Candidate.best? (rs.routes.filterMap (Candidate.ofRoute? vs)) = some c) :
    rs.Takes vs c.route ∧ c.bound.map some = c.route.namePlaces.map (Value.list vs).at? := by
  have ⟨cs, ds, hs, hc, hd⟩ := Candidate.best?_eq_some h
  have ⟨as, rs', hr, ha, hm⟩ := List.filterMap_eq_append_iff.mp hs
  have ⟨as', r, bs, hr', hn, hf, hb⟩ := List.filterMap_eq_cons_iff.mp hm
  obtain ⟨rfl, ht, ho, hx⟩ := Candidate.ofRoute?_eq_some hf
  refine ⟨⟨as ++ as', bs, ?_, ht, fun a hm hv => ?_, fun b hm hv => ?_⟩, hx⟩
  · rw [hr, hr', List.append_assoc]
  · have ⟨d, he, hda⟩ := Candidate.exists_ofRoute?_eq hv
    rw [← ho, ← hda]
    cases List.mem_append.mp hm
    case inl hm => exact hc d (ha ▸ List.mem_filterMap.mpr ⟨a, hm, he⟩)
    case inr hm => simp [hn a hm] at he
  · have ⟨d, he, hdb⟩ := Candidate.exists_ofRoute?_eq hv
    rw [← ho, ← hdb]
    exact hd d (hb ▸ List.mem_filterMap.mpr ⟨b, hm, he⟩)

theorem matchList_eq (rs : Routes α) (vs : List Value) :
    rs.matchList vs =
      match Candidate.best? (rs.routes.filterMap (Candidate.ofRoute? vs)) with
      | some c => .route c.route c.bound
      | none   => rs.fallback := by
  rw [matchList, filterMap_competing]
  cases hc : Candidate.best? (rs.routes.filterMap (Candidate.ofRoute? vs))
  case none   => rfl
  case some c => exact invoke_eq_route (takes_of_best?_eq_some hc).left.mem

theorem routed_matchList (rs : Routes α) (vs : List Value) : rs.Routed vs (rs.matchList vs) := by
  rw [matchList_eq]
  split
  case h_1 c hc =>
    have ⟨ht, hx⟩ := takes_of_best?_eq_some hc
    exact .taken ht hx
  case h_2 hc =>
    have hn : ∀ r ∈ rs.routes, ¬r.Accepts vs := by
      intro r hm ha
      have ⟨c, hr, _⟩ := Candidate.exists_ofRoute?_eq ha
      have hb := List.filterMap_eq_nil_iff.mp (Candidate.best?_eq_none_iff.mp hc) r hm
      simp [hr] at hb
    rw [fallback]
    split
    case h_1 f hf => exact .fallen hn hf
    case h_2 hf   => exact .unanswered hn (fallback?_eq_none_iff.mp hf)

theorem Routed.unique (hc : rs.Routed vs c) (hd : rs.Routed vs d) : c = d := by
  cases hc
  case taken r args ht ha =>
    cases hd
    case taken q args' hq hb =>
      obtain rfl := ht.unique hq
      rw [(List.map_inj_right fun _ _ => Option.some.inj).mp (ha.trans hb.symm)]
    case fallen hn _     => exact absurd ht.accepts (hn r ht.mem)
    case unanswered hn _ => exact absurd ht.accepts (hn r ht.mem)
  case fallen r hn hf =>
    cases hd
    case taken q _ hq _  => exact absurd hq.accepts (hn q hq.mem)
    case fallen q _ hq   => rw [Option.some.inj (hf.symm.trans hq)]
    case unanswered _ hu => simp [fallback?_eq_none_iff.mpr hu] at hf
  case unanswered hn hu =>
    cases hd
    case taken q _ hq _ => exact absurd hq.accepts (hn q hq.mem)
    case fallen q _ hf  => simp [fallback?_eq_none_iff.mpr hu] at hf
    case unanswered     => rfl

theorem matchList_eq_iff_routed : rs.matchList vs = c ↔ rs.Routed vs c := by
  constructor
  case mp =>
    rintro rfl
    exact routed_matchList rs vs
  case mpr => exact (routed_matchList rs vs).unique

end Routes

end Switchboard
