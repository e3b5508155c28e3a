import Switchboard.Proofs.Routes.Keys

namespace Switchboard

open Pattern (arityOfString)
open Text (spellsWildcard)

-- A key has an arity, and no key before it has it but for wildcards.
inductive Earliest (keys : List String) (n : Nat) (k : String) : Prop
  | intro (as bs : List String)
    (split  : keys = as ++ k :: bs)
    (arity  : arityOfString k = n)
    (before : ∀ a ∈ as, ¬spellsWildcard a → arityOfString a ≠ n)

variable {α : Type}

namespace Routes

-- What becomes of arguments: the earliest key of their number that is no wildcard is run on all of
-- them. If there is none, then the fallback is run on nothing if there is one.
inductive Dispatches (rs : Routes α) (args : List Value) : Choice α → Prop
  | taken (hr : r ∈ rs.routes) (hw : ¬spellsWildcard r.key)
    (hk : Earliest rs.keys args.length r.key) :
    Dispatches rs args (.route r args)
  | fallen (hn : ∀ k ∈ rs.keys, ¬spellsWildcard k → arityOfString k ≠ args.length)
    (hr : r ∈ rs.routes) (hf : fallbackKey? rs.keys = some r.key) :
    Dispatches rs args (.route r [])
  | unanswered (hn : ∀ k ∈ rs.keys, ¬spellsWildcard k → arityOfString k ≠ args.length)
    (hw : ∀ k ∈ rs.keys, ¬spellsWildcard k) :
    Dispatches rs args .unanswered

variable {rs : Routes α} {keys : List String} {args : List Value} {c : Choice α}
variable {k : String} {n : Nat}

theorem arguments_suits_iff :
    (Question.arguments args).Suits k ↔ ¬spellsWildcard k ∧ arityOfString k = args.length := by
  constructor
  case mp =>
    intro h
    cases h
    case arguments hw ha => exact ⟨hw, ha⟩
  case mpr => exact fun ⟨hw, ha⟩ => .arguments hw ha

theorem not_arguments_suits_iff :
    ¬(Question.arguments args).Suits k ↔ ¬spellsWildcard k → arityOfString k ≠ args.length := by
  rw [arguments_suits_iff, not_and]

theorem selects_arguments_iff :
    Selects keys (.arguments args) k ↔ ¬spellsWildcard k ∧ Earliest keys args.length k := by
  constructor
  case mp =>
    intro ⟨as, bs, hs, hk, ha, _⟩
    have ⟨hw, hn⟩ := arguments_suits_iff.mp hk
    refine ⟨hw, as, bs, hs, hn, fun a hm => not_arguments_suits_iff.mp fun hq => ?_⟩
    exact Nat.lt_irrefl 0 (ha a hm hq)
  case mpr =>
    intro ⟨hw, as, bs, hs, hn, ha⟩
    refine ⟨as, bs, hs, .arguments hw hn, fun a hm hq => ?_, fun _ _ _ => Nat.le_refl 0⟩
    exact absurd hq (not_arguments_suits_iff.mpr (ha a hm))

theorem dispatches_iff_settles :
    rs.Dispatches args c ↔ rs.Settles (.arguments args) c := by
  constructor
  case mp =>
    intro
    | .taken hr hw hk  => exact .selected hr (selects_arguments_iff.mpr ⟨hw, hk⟩) rfl
    | .fallen hn hr hf => exact .fallen (fun k hk => not_arguments_suits_iff.mpr (hn k hk)) hr hf
    | .unanswered hn hw =>
      exact .unanswered (fun k hk => not_arguments_suits_iff.mpr (hn k hk)) hw
  case mpr =>
    intro
    | .selected hr hk ha =>
      have ⟨hw, he⟩ := selects_arguments_iff.mp hk
      rw [(List.map_inj_right fun _ _ => Option.some.inj).mp ha]
      exact .taken hr hw he
    | .fallen hn hr hf => exact .fallen (fun k hk => not_arguments_suits_iff.mp (hn k hk)) hr hf
    | .unanswered hn hw =>
      exact .unanswered (fun k hk => not_arguments_suits_iff.mp (hn k hk)) hw

theorem dispatch_eq_iff_dispatches : rs.dispatch args = c ↔ rs.Dispatches args c := by
  have h : rs.Settles (.arguments args) (rs.dispatch args) := settles_ask rs (.arguments args)
  rw [dispatches_iff_settles]
  constructor
  case mp =>
    rintro rfl
    exact h
  case mpr => exact h.unique

theorem firstOf?_eq_some_iff :
    (ArityIndex.ofRoutes rs).firstOf? n = some k ↔ ¬spellsWildcard k ∧ Earliest rs.keys n k := by
  have hf : (fun r : Route α => decide (!r.isFallback ∧ r.pattern.arity == n)) =
      (fun k => !spellsWildcard k && arityOfString k == n) ∘ Route.key := by
    funext r
    rw [Function.comp_apply, ← Route.isFallback_eq, ← Route.arity_pattern, Bool.decide_and,
      Bool.decide_eq_true, Bool.decide_eq_true]
  have hk : (ArityIndex.ofRoutes rs).firstOf? n =
      rs.keys.find? fun k => !spellsWildcard k && arityOfString k == n := by
    rw [ArityIndex.firstOf?_ofRoutes, competing, List.find?_filter, keys, List.find?_map, ← hf]
  rw [hk, List.find?_eq_some_iff_append]
  constructor
  case mp =>
    rintro ⟨hk, as, bs, hs, ha⟩
    simp only [Bool.and_eq_true, Bool.not_eq_true', beq_iff_eq] at hk
    refine ⟨by simp [hk.left], as, bs, hs, hk.right, fun a hm hw => ?_⟩
    simpa [hw] using ha a hm
  case mpr =>
    rintro ⟨hw, as, bs, hs, hn, ha⟩
    refine ⟨by simp [hw, hn], as, bs, hs, fun a hm => ?_⟩
    by_cases hw : spellsWildcard a
    case pos => simp [hw]
    case neg => simp [ha a hm hw]

theorem firstWith?_of_keys_eq_singleton (h : rs.keys = [k]) (hw : spellsWildcard k) :
    (ArityIndex.ofRoutes rs).firstWith? 0 = some k := by
  have ⟨r, hr, hk⟩ := List.map_eq_singleton_iff.mp h
  have hf : r.isFallback := by rw [Route.isFallback_eq, hk, hw]
  have ha : (ArityIndex.ofRoutes rs).arities = [none] := by
    simp [ArityIndex.arities_ofRoutes, ArityIndex.listed, hr, hf]
  have hk : (ArityIndex.ofRoutes rs).keys = [k] := h
  simp only [ArityIndex.firstWith?, hk, ha]

-- The index finds the first key of an arity. A wildcard is found only where it is the only key.
theorem firstWith?_eq_some_iff :
    (ArityIndex.ofRoutes rs).firstWith? n = some k ↔
      Earliest rs.keys n k ∧ (spellsWildcard k → rs.keys = [k]) := by
  constructor
  case mp =>
    intro h
    rcases ArityIndex.firstWith?_ofRoutes rs n with hf | ⟨r, hr, hf, hn, hk⟩
    case inl =>
      rw [hf, ← ArityIndex.firstOf?_ofRoutes, firstOf?_eq_some_iff] at h
      exact ⟨h.right, fun hw => absurd hw h.left⟩
    case inr =>
      cases hk.symm.trans h
      have hk : rs.keys = [r.key] := by rw [keys, hr, List.map_singleton]
      have ha : arityOfString r.key = n := by
        rw [Pattern.arityOfString_of_spellsWildcard (Route.isFallback_eq ▸ hf), hn]
      exact ⟨⟨[], [], hk, ha, by simp⟩, fun _ => hk⟩
  case mpr =>
    rintro ⟨he, hs⟩
    by_cases hw : spellsWildcard k
    case pos =>
      obtain ⟨_, _, _, hn, _⟩ := he
      cases (Pattern.arityOfString_of_spellsWildcard hw).symm.trans hn
      exact firstWith?_of_keys_eq_singleton (hs hw) hw
    case neg =>
      have ho := firstOf?_eq_some_iff.mpr ⟨hw, he⟩
      rcases ArityIndex.firstWith?_ofRoutes rs n with hf | ⟨r, hr, hf, _, _⟩
      case inl => rw [hf, ← ArityIndex.firstOf?_ofRoutes, ho]
      case inr =>
        obtain ⟨as, bs, hk, _, _⟩ := he
        have hm : k ∈ rs.keys := by simp [hk]
        rw [keys, hr, List.map_singleton, List.mem_singleton] at hm
        exact absurd (hm ▸ Route.isFallback_eq ▸ hf) hw

theorem dispatch_eq_elim_firstOf? (rs : Routes α) (args : List Value) :
    rs.dispatch args =
      ((ArityIndex.ofRoutes rs).firstOf? args.length).elim rs.fallback (rs.invoke · args) := by
  have hf : (ArityIndex.ofRoutes rs).firstOf? args.length =
      (rs.competing.find? (Route.suitsArguments args)).map Route.key :=
    ArityIndex.firstOf?_ofRoutes rs args.length
  rw [dispatch_eq_first, first, hf]
  cases hr : rs.competing.find? (Route.suitsArguments args)
  case none   => rfl
  case some r => exact (invoke_of_find?_eq_some hr).symm

-- Arguments are routed as the plain reading says, with the case for a single key or without it.
-- What the index finds has the arity that is asked for, and nothing before it has but wildcards.
theorem dispatch_plain (rs : Routes α) :
    (∀ args c, rs.dispatch args = c ↔ rs.Dispatches args c) ∧
    (∀ args, rs.dispatch args =
      ((ArityIndex.ofRoutes rs).firstOf? args.length).elim rs.fallback (rs.invoke · args)) ∧
    ∀ n k, (ArityIndex.ofRoutes rs).firstWith? n = some k ↔
      Earliest rs.keys n k ∧ (spellsWildcard k → rs.keys = [k]) :=
  ⟨fun _ _ => dispatch_eq_iff_dispatches, dispatch_eq_elim_firstOf? rs,
    fun _ _ => firstWith?_eq_some_iff⟩

end Routes

end Switchboard
