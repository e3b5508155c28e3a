import Switchboard.Proofs.Keyed.Order
import Switchboard.Sequence

namespace Switchboard.Sequence

section

variable {κ α : Type} [DecidableEq κ] {ls ms ns : List (Keyed κ α)} {m : Keyed κ α} {k : κ}

theorem mergeKeyed_concat : mergeKeyed (ms ++ [m]) = (mergeKeyed ms).putAll m.entries := by
  simp [mergeKeyed]

theorem mergeKeyed_eq_ofList : mergeKeyed ms = .ofList (ms.flatMap Keyed.entries) := by
  induction ms using List.reverseRecOn
  case nil => rfl
  case append_singleton ms m hi =>
    rw [mergeKeyed_concat, hi, List.flatMap_append, List.flatMap_singleton, Keyed.ofList_append]

theorem mergeKeyed_append :
    mergeKeyed (ms ++ ns) = (mergeKeyed ms).putAll (ns.flatMap Keyed.entries) := by
  rw [mergeKeyed_eq_ofList, List.flatMap_append, Keyed.ofList_append, mergeKeyed_eq_ofList]

theorem mergeKeyed_singleton : mergeKeyed [m] = m := by
  rw [mergeKeyed_eq_ofList, List.flatMap_singleton, Keyed.ofList_entries]

theorem keys_mergeKeyed : (mergeKeyed ms).keys = (ms.flatMap Keyed.keys).eraseDups := by
  have hk : Entries.keys (ms.flatMap Keyed.entries) = ms.flatMap Keyed.keys := List.map_flatMap
  rw [mergeKeyed_eq_ofList, ← hk]
  exact Entries.keys_putAll_nil

theorem get?_mergeKeyed : (mergeKeyed ms).get? k = ms.reverse.findSome? (·.get? k) := by
  induction ms using List.reverseRecOn
  case nil => rfl
  case append_singleton ms m hi =>
    have hg : (mergeKeyed (ms ++ [m])).get? k = (m.get? k).or ((mergeKeyed ms).get? k) := by
      rw [mergeKeyed_concat]
      exact Entries.get?_putAll m.distinct
    rw [hg, hi, List.reverse_concat, List.findSome?_cons]
    cases m.get? k <;> rfl

theorem mergeKeyed_mergeKeyed :
    mergeKeyed (ls ++ mergeKeyed ms :: ns) = mergeKeyed (ls ++ ms ++ ns) := by
  have hm : mergeKeyed ms = .ofList (ms.flatMap Keyed.entries) := mergeKeyed_eq_ofList
  rw [List.append_cons, mergeKeyed_append, mergeKeyed_concat, hm, Keyed.putAll_ofList,
    ← mergeKeyed_append, ← mergeKeyed_append]

end

variable {vs ws : List Value} {v : Value}

theorem ofPairs_append : ofPairs (vs ++ ws) = mergeKeyed [ofPairs vs, ofPairs ws] := by
  have hm : mergeKeyed ([ofPairs vs] ++ [ofPairs ws]) =
      (ofPairs vs).putAll (ofPairs ws).entries := by
    rw [mergeKeyed_concat, mergeKeyed_singleton]
  rw [List.singleton_append] at hm
  rw [hm, ofPairs, List.filterMap_append, Keyed.ofList_append, ofPairs, ofPairs,
    Keyed.putAll_ofList]

theorem entry?_eq_none (h : ∀ k w, v ≠ .list [.text k, w]) : entry? v = none := by
  unfold entry?
  split
  case h_1 k w => exact absurd rfl (h k w)
  case h_2     => rfl

theorem ofPairs_append_cons (h : entry? v = none) :
    ofPairs (vs ++ v :: ws) = ofPairs (vs ++ ws) := by
  simp [ofPairs, h]

-- Maps may be merged in groups, and the empty map may be left out. Maps that are made from pairs
-- are merged like all others, and what is no pair may be left out.
theorem merging_exact {κ α : Type} [DecidableEq κ] :
    (∀ ms : List (Keyed κ α), (mergeKeyed ms).keys = (ms.flatMap Keyed.keys).eraseDups ∧
      ∀ k, (mergeKeyed ms).get? k = ms.reverse.findSome? (·.get? k)) ∧
    (∀ ls ms ns : List (Keyed κ α),
      mergeKeyed (ls ++ mergeKeyed ms :: ns) = mergeKeyed (ls ++ ms ++ ns)) ∧
    (∀ ls ns : List (Keyed κ α), mergeKeyed (ls ++ .empty :: ns) = mergeKeyed (ls ++ ns)) ∧
    (∀ m : Keyed κ α, mergeKeyed [m] = m) ∧
    (∀ vs ws, ofPairs (vs ++ ws) = mergeKeyed [ofPairs vs, ofPairs ws]) ∧
    (∀ k v, (ofPairs [.list [.text k, v]]).entries = [(k, v)]) ∧
    ∀ vs v ws, (∀ k w, v ≠ .list [.text k, w]) → ofPairs (vs ++ v :: ws) = ofPairs (vs ++ ws) := by
  refine ⟨fun ms => ⟨keys_mergeKeyed, fun k => get?_mergeKeyed⟩, fun ls ms ns => ?_,
    fun ls ns => ?_, fun m => mergeKeyed_singleton, fun vs ws => ofPairs_append, fun k v => rfl,
    fun vs v ws h => ?_⟩
  case refine_1 => exact mergeKeyed_mergeKeyed
  case refine_2 =>
    have he : mergeKeyed (ls ++ mergeKeyed [] :: ns) = mergeKeyed (ls ++ [] ++ ns) :=
      mergeKeyed_mergeKeyed
    rwa [List.append_nil] at he
  case refine_3 => exact ofPairs_append_cons (entry?_eq_none h)

theorem merging_exact_lone :
    (∀ k w, Value.list [.text "b"] ≠ .list [.text k, w]) ∧
    ofPairs ([.list [.text "b", .int 1], .list [.text "a", .null]] ++
        .list [.text "b"] :: [.list [.text "b", .int 2]]) =
      ofPairs ([.list [.text "b", .int 1], .list [.text "a", .null]] ++
        [.list [.text "b", .int 2]]) := by
  have h : ∀ k w, Value.list [.text "b"] ≠ .list [.text k, w] := fun _ _ => nofun
  have ⟨_, _, _, _, _, _, hp⟩ := @merging_exact String Value _
  exact ⟨h, hp _ _ _ h⟩

end Switchboard.Sequence
