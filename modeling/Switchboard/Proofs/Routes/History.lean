import Switchboard.Proofs.Keyed.Order
import Switchboard.Proofs.Routes.Lookup

namespace Switchboard

abbrev History (α : Type) :=
  List (String × α)

namespace History

variable {α : Type} {h : History α} {f : α} {j k : String}

def keys (h : History α) : List String :=
  (h.map Prod.fst).eraseDups

def latest? (h : History α) (key : String) : Option α :=
  h.reverse.lookup key

theorem mem_keys_iff : k ∈ h.keys ↔ k ∈ h.map Prod.fst :=
  List.mem_eraseDups

theorem keys_concat :
    keys (h ++ [(j, f)]) = if j ∈ h.keys then h.keys else h.keys ++ [j] := by
  simp only [keys, List.map_append, List.map_singleton, eraseDups_concat, List.mem_eraseDups]

theorem latest?_concat :
    latest? (h ++ [(j, f)]) k = if j = k then some f else h.latest? k := by
  rw [latest?, List.reverse_append, List.reverse_singleton, List.singleton_append, List.lookup_cons,
    ← latest?]
  by_cases hk : j = k
  case pos => simp [hk]
  case neg => simp [hk, beq_false_of_ne (Ne.symm hk)]

theorem latest?_cons :
    latest? ((j, f) :: h) k = (h.latest? k).or (if j = k then some f else none) := by
  rw [latest?, List.reverse_cons, List.lookup_append, ← latest?]
  by_cases hk : j = k
  case pos => simp [hk]
  case neg => simp [hk, List.lookup_cons, beq_false_of_ne (Ne.symm hk)]

theorem isSome_latest?_iff : (h.latest? k).isSome ↔ k ∈ h.keys := by
  simp only [latest?, List.lookup_isSome_iff, mem_keys_iff, List.mem_map, List.mem_reverse,
    beq_iff_eq]
  exact exists_congr fun _ => and_congr_right fun _ => eq_comm

theorem latest?_eq_none (hk : k ∉ h.keys) : h.latest? k = none := by
  rwa [← isSome_latest?_iff, Option.not_isSome_iff_eq_none] at hk

end History

namespace Routes

variable {α : Type} {rs : Routes α} {h : History α} {f : α} {j k : String}

structure Follows (rs : Routes α) (h : History α) : Prop where
  keys : rs.keys = h.keys
  get? : ∀ k, rs.get? k = (h.latest? k).map (Route.make k)

namespace Follows

theorem empty : (empty : Routes α).Follows [] where
  keys   := rfl
  get? _ := rfl

theorem insert (hf : rs.Follows h) : (rs.insert j f).Follows (h ++ [(j, f)]) where
  keys   := by rw [keys_insert, History.keys_concat, hf.keys]
  get? k := by
    rw [get?_insert, History.latest?_concat, hf.get?]
    split
    case isTrue hk => rw [hk, Option.map_some]
    case isFalse   => rfl

theorem ofList (h : History α) : (ofList h).Follows h := by
  induction h using List.reverseRecOn
  case nil => exact empty
  case append_singleton h e hi =>
    rw [Routes.ofList, List.foldl_concat]
    exact insert hi

theorem exists_get?_eq (hf : rs.Follows h) (hk : k ∈ h.keys) :
    ∃ f, h.latest? k = some f ∧ rs.get? k = some (.make k f) := by
  have ⟨f, hl⟩ := Option.isSome_iff_exists.mp (History.isSome_latest?_iff.mpr hk)
  exact ⟨f, hl, by rw [hf.get?, hl, Option.map_some]⟩

theorem get?_of_not_mem (hf : rs.Follows h) (hk : k ∉ h.keys) : rs.get? k = none := by
  rw [hf.get?, History.latest?_eq_none hk, Option.map_none]

-- The arity of a key that was inserted is that of its text, wildcard or not.
theorem arity_of_mem (hf : rs.Follows h) (hk : k ∈ h.keys) :
    (ArityIndex.ofRoutes rs).get? k = some (Pattern.arityOfString k) := by
  have ⟨f, _, hg⟩ := hf.exists_get?_eq hk
  rw [ArityIndex.get?_ofRoutes, hg, Option.map_some, Route.make]

end Follows

theorem map_competing :
    rs.competing.map (fun r => (r.key, r.pattern)) =
      (rs.keys.filter (!Text.spellsWildcard ·)).map fun k => (k, Pattern.ofString k) := by
  rw [← map_filter_routes, competing]
  congr 1
  case e_f => funext r; rw [r.pattern_eq]
  case e_l => congr 1; funext r; rw [Route.isFallback_eq]

structure Reflects (rs : Routes α) (h : History α) : Prop where
  keys                  : rs.keys = h.keys
  size                  : rs.size = h.keys.length
  pattern?_of_mem       : ∀ k ∈ h.keys, rs.pattern? k = some (.ofString k)
  pattern?_of_not_mem   : ∀ k ∉ h.keys, rs.pattern? k = none
  competing             : rs.competing.map (fun r => (r.key, r.pattern)) =
                            (h.keys.filter (!Text.spellsWildcard ·)).map fun k => (k, .ofString k)
  invoke_of_mem         : ∀ k ∈ h.keys, ∃ f, h.latest? k = some f ∧
                            ∀ args, rs.invoke k args = .route (.make k f) args
  invoke_of_not_mem     : ∀ k ∉ h.keys, ∀ args, rs.invoke k args = rs.fallback
  fallback_underscore   : "_" ∈ h.keys → ∃ f, h.latest? "_" = some f ∧
                            rs.fallback = .route (.make "_" f) []
  fallback_padded       : "_" ∉ h.keys → ∀ k, h.keys.find? Text.spellsWildcard = some k →
                            ∃ f, h.latest? k = some f ∧ rs.fallback = .route (.make k f) []
  fallback_unanswered   : (∀ k ∈ h.keys, ¬Text.spellsWildcard k) → rs.fallback = .unanswered
  isSome_fallback?      : rs.fallback?.isSome ↔ "_" ∈ h.keys ∨ ∃ k ∈ h.keys, Text.spellsWildcard k
  arity_of_mem          : ∀ k ∈ h.keys,
                            (ArityIndex.ofRoutes rs).get? k = some (Pattern.arityOfString k)
  arity_of_wildcard     : ∀ k ∈ h.keys, Text.spellsWildcard k →
                            (ArityIndex.ofRoutes rs).get? k = some 0
  arity_of_not_mem      : ∀ k ∉ h.keys, (ArityIndex.ofRoutes rs).get? k = none

theorem Follows.reflects (hf : rs.Follows h) : rs.Reflects h where
  keys := hf.keys
  size := by rw [size, ← hf.keys, Routes.keys, List.length_map]
  pattern?_of_mem k hk := by
    obtain ⟨f, _, hg⟩ := hf.exists_get?_eq hk
    rw [pattern?, hg, Option.map_some, Route.make]
  pattern?_of_not_mem k hk := by
    rw [pattern?, hf.get?_of_not_mem hk, Option.map_none]
  competing := by rw [map_competing, hf.keys]
  invoke_of_mem k hk := by
    obtain ⟨f, hl, hg⟩ := hf.exists_get?_eq hk
    exact ⟨f, hl, fun args => by rw [invoke, hg]⟩
  invoke_of_not_mem k hk args := by
    rw [invoke, hf.get?_of_not_mem hk]
  fallback_underscore hu := by
    obtain ⟨f, hl, hg⟩ := hf.exists_get?_eq hu
    exact ⟨f, hl, by rw [fallback, fallback?, hg, Option.some_or]⟩
  fallback_padded hu k hk := by
    obtain ⟨f, hl, hg⟩ := hf.exists_get?_eq (List.mem_of_find?_eq_some hk)
    have hr : rs.routes.find? Route.isFallback = some (.make k f) := by
      rw [find?_isFallback, hf.keys, hk, Option.bind_some, hg]
    exact ⟨f, hl, by rw [fallback, fallback?, hf.get?_of_not_mem hu, Option.none_or, hr]⟩
  fallback_unanswered hk := by
    rw [← hf.keys, ← fallback?_eq_none_iff] at hk
    rw [fallback, hk]
  isSome_fallback? := by
    rw [isSome_fallback?_iff, hf.keys, iff_or_self]
    exact fun hu => ⟨"_", hu, Text.spellsWildcard_underscore⟩
  arity_of_mem k hk := hf.arity_of_mem hk
  arity_of_wildcard k hk hs := by
    rw [hf.arity_of_mem hk, Pattern.arityOfString_of_spellsWildcard hs]
  arity_of_not_mem k hk := by
    rw [ArityIndex.get?_ofRoutes, hf.get?_of_not_mem hk, Option.map_none]

-- Whatever keys are repeated, and whenever they come, a table is what its history says.
theorem reflects_ofList (h : History α) : (ofList h).Reflects h :=
  (Follows.ofList h).reflects

end Routes

end Switchboard
