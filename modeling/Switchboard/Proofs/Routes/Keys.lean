import Mathlib.Data.List.Induction
import Switchboard.Keyed
import Switchboard.Proofs.Routes.Growth
import Switchboard.Proofs.Routes.Relevance

namespace Switchboard

inductive Question
  | arguments (vs : List Value)
  | value (v : Value)

namespace Question

inductive Suits : Question → String → Prop
  | arguments (hw : ¬Text.spellsWildcard k) (ha : Pattern.arityOfString k = vs.length) :
    Suits (.arguments vs) k
  | scalar (hk : Pattern.ofString k = .literal l) (he : v.isEmptyScalar = false)
    (hl : l.accepts v) :
    Suits (.value v) k
  | list (hk : Pattern.ofString k = .list ps) (hv : List.Forall₂ Pattern.Accepts ps vs) :
    Suits (.value (.list vs)) k
  | object (hk : Pattern.ofString k = .name o.typeName)
    (hc : Registry.builtin.contains o.typeName) :
    Suits (.value (.object o)) k

-- Lists go to the least open of the keys that suit them, and all else to the first one.
def openness : Question → String → Nat
  | .value (.list _), k => ((Pattern.ofString k).places Pattern.isOpen).length
  | _, _                => 0

def bindings : Question → String → List (Option Value)
  | .arguments vs, _     => vs.map some
  | .value (.list vs), k => ((Pattern.ofString k).places Pattern.isName).map (Value.list vs).at?
  | .value _, _          => []

end Question

-- A key is selected if it suits, none before it that suits is as closed, and none after it is more
-- so.
inductive Selects (keys : List String) (q : Question) (k : String) : Prop
  | intro (as bs : List String)
    (split  : keys = as ++ k :: bs)
    (suits  : q.Suits k)
    (before : ∀ a ∈ as, q.Suits a → q.openness k < q.openness a)
    (after  : ∀ b ∈ bs, q.Suits b → q.openness k ≤ q.openness b)

-- The key that catches what falls through: `_` itself, or else the first that is it but for blanks.
def fallbackKey? (keys : List String) : Option String :=
  if "_" ∈ keys then some "_" else keys.find? Text.spellsWildcard

namespace Selects

variable {keys : List String} {q : Question} {j k : String}

theorem mem (h : Selects keys q k) : k ∈ keys := by
  cases h
  case intro as bs hs _ _ _ => simp [hs]

theorem suits (h : Selects keys q k) : q.Suits k := by
  cases h
  assumption

theorem unique (hj : Selects keys q j) (hk : Selects keys q k) : j = k := by
  have ⟨as, bs, hs, hq, ha, hb⟩ := hj
  have ⟨as', bs', hs', hq', ha', hb'⟩ := hk
  rcases eq_or_mem_of_append_cons_eq (hs.symm.trans hs') with he | ⟨hm, hm'⟩ | ⟨hm, hm'⟩
  · exact he
  · exact absurd (hb k hm' hq') (Nat.not_le.mpr (ha' j hm hq))
  · exact absurd (hb' j hm' hq) (Nat.not_le.mpr (ha k hm hq'))

end Selects

theorem Entries.get?_eq_some_iff {κ α : Type} [DecidableEq κ] {es : Entries κ α} {k : κ} {v : α}
    (h : es.keys.Nodup) : es.get? k = some v ↔ (k, v) ∈ es := by
  induction es
  case nil => simp [Entries.get?]
  case cons e es hi =>
    rw [Entries.keys, List.map_cons, List.nodup_cons] at h
    rw [Entries.get?, List.mem_cons]
    split
    case isTrue he =>
      have hn : (k, v) ∉ es := fun hm => h.left (he ▸ List.mem_map_of_mem hm)
      simp [hn, Prod.ext_iff, he, eq_comm]
    case isFalse he => simp [hi h.right, Prod.ext_iff, Ne.symm he]

theorem Route.make_key_handler {α : Type} (r : Route α) : Route.make r.key r.handler = r := by
  have ⟨k, p, f, hp⟩ := r
  cases hp
  rfl

namespace Routes

variable {α : Type}

def ask (rs : Routes α) : Question → Choice α
  | .arguments vs => rs.dispatch vs
  | .value v      => rs.matchValue v

-- What becomes of a question: the key that it selects is run on the bindings. If no key suits it,
-- then the fallback is run on nothing if there is one.
inductive Settles (rs : Routes α) (q : Question) : Choice α → Prop
  | selected (hr : r ∈ rs.routes) (hk : Selects rs.keys q r.key)
    (ha : args.map some = q.bindings r.key) :
    Settles rs q (.route r args)
  | fallen (hn : ∀ k ∈ rs.keys, ¬q.Suits k) (hr : r ∈ rs.routes)
    (hf : fallbackKey? rs.keys = some r.key) :
    Settles rs q (.route r [])
  | unanswered (hn : ∀ k ∈ rs.keys, ¬q.Suits k) (hw : ∀ k ∈ rs.keys, ¬Text.spellsWildcard k) :
    Settles rs q .unanswered

variable {rs : Routes α} {r : Route α} {q : Question} {c d : Choice α}
variable {o : Object} {keys : List String} {k : String} {v : Value} {vs args : List Value}

theorem fallback?_eq_bind : rs.fallback? = (fallbackKey? rs.keys).bind rs.get? := by
  rw [fallback?, find?_isFallback, fallbackKey?]
  by_cases hu : "_" ∈ rs.keys
  case pos =>
    obtain ⟨r, hr, hk⟩ := mem_keys_iff.mp hu
    simp [hu, get?_eq_some_iff.mpr ⟨hr, hk⟩]
  case neg =>
    have hn : rs.get? "_" = none := by
      refine Option.eq_none_iff_forall_ne_some.mpr fun r hr => hu ?_
      obtain ⟨hm, hk⟩ := get?_eq_some_iff.mp hr
      exact hk ▸ mem_keys hm
    simp [hu, hn]

theorem fallbackKey?_of_fallback?_eq_some (h : rs.fallback? = some r) :
    fallbackKey? rs.keys = some r.key := by
  rw [fallback?_eq_bind] at h
  have ⟨k, hk, hr⟩ := Option.bind_eq_some_iff.mp h
  rw [hk, (get?_eq_some_iff.mp hr).right]

theorem fallbackKey?_eq_none_iff :
    fallbackKey? keys = none ↔ ∀ k ∈ keys, ¬Text.spellsWildcard k := by
  rw [fallbackKey?]
  split
  case isTrue hu  =>
    simp only [reduceCtorEq, false_iff]
    exact fun h => h "_" hu Text.spellsWildcard_underscore
  case isFalse hu => simp

theorem routes_ofList {es : Entries String α} (h : es.keys.Nodup) :
    (ofList es).routes = es.map fun e => .make e.1 e.2 := by
  induction es using List.reverseRecOn
  case nil => rfl
  case append_singleton es e hi =>
    rw [Entries.keys, List.map_append] at h
    obtain ⟨hd, _, hn⟩ := List.nodup_append.mp h
    have he : e.1 ∉ (ofList es).keys := by
      rw [Routes.keys, hi hd, List.map_map]
      exact fun hm => hn e.1 hm e.1 (by simp) rfl
    rw [ofList, List.foldl_concat, ← ofList, routes_insert he, hi hd, List.map_append]
    rfl

theorem keys_ofList (file : Keyed String α) : (ofList file.entries).keys = file.keys := by
  rw [Routes.keys, routes_ofList file.distinct, List.map_map]
  rfl

theorem mem_routes_ofList_iff {file : Keyed String α} :
    r ∈ (ofList file.entries).routes ↔ file.get? r.key = some r.handler := by
  rw [routes_ofList file.distinct, Keyed.get?, Entries.get?_eq_some_iff file.distinct, List.mem_map]
  constructor
  case mp =>
    intro ⟨e, hm, he⟩
    exact he ▸ hm
  case mpr => exact fun hm => ⟨_, hm, Route.make_key_handler r⟩

theorem forall_mem_keys {p : String → Prop} (h : ∀ r ∈ rs.routes, p r.key) :
    ∀ k ∈ rs.keys, p k := by
  intro k hk
  have ⟨r, hr, he⟩ := mem_keys_iff.mp hk
  exact he ▸ h r hr

theorem selects_of_routes_eq {as bs : List (Route α)} (hs : rs.routes = as ++ r :: bs)
    (hr : q.Suits r.key) (ha : ∀ a ∈ as, q.Suits a.key → q.openness r.key < q.openness a.key)
    (hb : ∀ b ∈ bs, q.Suits b.key → q.openness r.key ≤ q.openness b.key) :
    Selects rs.keys q r.key := by
  refine ⟨as.map Route.key, bs.map Route.key, by simp [Routes.keys, hs], hr, ?_, ?_⟩
  · exact List.forall_mem_map.mpr ha
  · exact List.forall_mem_map.mpr hb

theorem settles_fallback (h : ∀ k ∈ rs.keys, ¬q.Suits k) : rs.Settles q rs.fallback := by
  rw [fallback]
  split
  case h_1 r hr =>
    exact .fallen h (mem_of_fallback?_eq_some hr) (fallbackKey?_of_fallback?_eq_some hr)
  case h_2 hr => exact .unanswered h (fallback?_eq_none_iff.mp hr)

theorem settles_first {suits : Route α → Bool}
    (hs : ∀ r : Route α, r.isFallback = false ∧ suits r ↔ q.Suits r.key)
    (ho : ∀ k, q.openness k = 0) (ha : ∀ k, args.map some = q.bindings k) :
    rs.Settles q (rs.first suits args) := by
  -- The wildcards are left out by the question itself, so all routes may be searched.
  have hc : rs.competing.find? suits = rs.routes.find? fun r => !r.isFallback && suits r := by
    simp [competing, List.find?_filter]
  cases hr : rs.competing.find? suits
  case none =>
    rw [first_eq_fallback (List.find?_eq_none.mp hr)]
    refine settles_fallback (forall_mem_keys fun r hm hq => ?_)
    have hn := List.find?_eq_none.mp (hc.symm.trans hr) r hm
    simp [(hs r).mpr hq] at hn
  case some r =>
    rw [first_eq_route hr]
    obtain ⟨hp, as, bs, he, hn⟩ := List.find?_eq_some_iff_append.mp (hc.symm.trans hr)
    refine .selected (by simp [he]) (selects_of_routes_eq he ?_ ?_ ?_) (ha r.key)
    · exact (hs r).mp (by simpa using hp)
    · intro a hm hq
      have hna := hn a hm
      simp [(hs a).mpr hq] at hna
    · simp [ho]

theorem suits_arguments_iff :
    r.isFallback = false ∧ r.suitsArguments vs ↔ (Question.arguments vs).Suits r.key := by
  rw [Route.isFallback_eq, Route.suitsArguments, Route.arity_pattern, beq_iff_eq]
  constructor
  case mp  => exact fun ⟨hw, ha⟩ => .arguments (by simp [hw]) ha
  case mpr =>
    intro h
    cases h
    case arguments hw ha => exact ⟨by simpa using hw, ha⟩

theorem suitsScalar_iff_suits (hv : v.list? = none) (ho : v.object? = none) :
    r.suitsScalar v ↔ (Question.value v).Suits r.key := by
  rw [Route.suitsScalar_iff, r.pattern_eq]
  constructor
  case mp =>
    intro ⟨he, l, hl, ha⟩
    exact .scalar (Pattern.literal?_eq_some_iff.mp hl) he ha
  case mpr =>
    intro h
    cases v <;> cases hv <;> cases ho
    all_goals
      have .scalar hk he hl := h
      exact ⟨he, _, Pattern.literal?_eq_some_iff.mpr hk, hl⟩

theorem suitsObject_iff_suits :
    r.suitsObject .builtin o ↔ (Question.value (.object o)).Suits r.key := by
  rw [Route.suitsObject_iff, r.pattern_eq]
  constructor
  case mp  => exact fun ⟨hc, hn⟩ => .object (Pattern.name?_eq_some_iff.mp hn) hc
  case mpr =>
    intro
    | .object hk hc  => exact ⟨hc, Pattern.name?_eq_some_iff.mpr hk⟩
    | .scalar _ _ hl => simp [Literal.accepts] at hl

theorem suits_value_iff (hv : v.list? = none) :
    r.isFallback = false ∧ r.suits .builtin v ↔ (Question.value v).Suits r.key := by
  rw [and_iff_right_of_imp fun h => Route.isFallback_of_isRelevant (Route.isRelevant_of_suits h)]
  cases v
  case list     => cases hv
  case object o => exact suitsObject_iff_suits
  all_goals exact suitsScalar_iff_suits rfl rfl

theorem accepts_iff_suits : r.Accepts vs ↔ (Question.value (.list vs)).Suits r.key := by
  rw [Route.Accepts, r.pattern_eq]
  constructor
  case mp  => exact fun ⟨_, hk, hv⟩ => .list hk hv
  case mpr =>
    intro
    | .list hk hv    => exact ⟨_, hk, hv⟩
    | .scalar _ _ hl => simp [Literal.accepts] at hl

theorem openness_value_list :
    (Question.value (.list vs)).openness r.key = r.openPlaces.length := by
  rw [Route.openPlaces, r.pattern_eq]
  rfl

theorem Takes.selects (h : rs.Takes vs r) : Selects rs.keys (.value (.list vs)) r.key := by
  have ⟨as, bs, hs, hr, ha, hb⟩ := h
  refine selects_of_routes_eq hs (accepts_iff_suits.mp hr) (fun a hm hq => ?_) fun b hm hq => ?_
  · rw [openness_value_list, openness_value_list]
    exact ha a hm (accepts_iff_suits.mpr hq)
  · rw [openness_value_list, openness_value_list]
    exact hb b hm (accepts_iff_suits.mpr hq)

theorem Routed.settles (h : rs.Routed vs c) : rs.Settles (.value (.list vs)) c := by
  cases h
  case taken r args ht ha =>
    refine .selected ht.mem ht.selects ?_
    rw [ha, Route.namePlaces, r.pattern_eq]
    rfl
  case fallen r hn hf =>
    have hs : ∀ k ∈ rs.keys, ¬(Question.value (.list vs)).Suits k :=
      forall_mem_keys fun r hm => mt accepts_iff_suits.mpr (hn r hm)
    exact .fallen hs (mem_of_fallback?_eq_some hf) (fallbackKey?_of_fallback?_eq_some hf)
  case unanswered hn hw =>
    exact .unanswered (forall_mem_keys fun r hm => mt accepts_iff_suits.mpr (hn r hm)) hw

theorem settles_ask (rs : Routes α) (q : Question) : rs.Settles q (rs.ask q) := by
  cases q
  case arguments vs =>
    rw [ask, dispatch_eq_first]
    exact settles_first (fun _ => suits_arguments_iff) (fun _ => rfl) fun _ => rfl
  case value v =>
    rw [ask, matchValue]
    cases hv : v.list?
    case none =>
      rw [matchIn_eq_first hv]
      refine settles_first (fun _ => suits_value_iff hv) (fun k => ?_) fun k => ?_
      all_goals cases v <;> first | rfl | cases hv
    case some vs =>
      cases v <;> cases hv
      exact (routed_matchList rs vs).settles

theorem Settles.mem (h : rs.Settles q (.route r args)) : r ∈ rs.routes := by
  cases h <;> assumption

theorem Settles.unique (hc : rs.Settles q c) (hd : rs.Settles q d) : c = d := by
  cases hc
  case selected r args hr hk ha =>
    cases hd
    case selected r' args' hr' hk' ha' =>
      obtain rfl := eq_of_key_eq hr hr' (hk.unique hk')
      rw [(List.map_inj_right fun _ _ => Option.some.inj).mp (ha.trans ha'.symm)]
    case fallen hn _ _     => exact absurd hk.suits (hn _ hk.mem)
    case unanswered hn _   => exact absurd hk.suits (hn _ hk.mem)
  case fallen r hn hr hf =>
    cases hd
    case selected hk' _      => exact absurd hk'.suits (hn _ hk'.mem)
    case fallen r' _ hr' hf' => rw [eq_of_key_eq hr hr' (Option.some.inj (hf.symm.trans hf'))]
    case unanswered hw       => simp [fallbackKey?_eq_none_iff.mpr hw] at hf
  case unanswered hn hw =>
    cases hd
    case selected hk' _      => exact absurd hk'.suits (hn _ hk'.mem)
    case fallen hf           => simp [fallbackKey?_eq_none_iff.mpr hw] at hf
    case unanswered          => rfl

end Routes

end Switchboard
