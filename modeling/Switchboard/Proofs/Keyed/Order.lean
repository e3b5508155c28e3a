import Mathlib.Data.List.Induction
import Switchboard.Keyed

namespace Switchboard

theorem eraseDups_concat {κ : Type} [DecidableEq κ] {ks : List κ} {k : κ} :
    (ks ++ [k]).eraseDups = if k ∈ ks then ks.eraseDups else ks.eraseDups ++ [k] := by
  rw [List.eraseDups_append]
  by_cases hk : k ∈ ks
  case pos => simp [hk, List.removeAll]
  case neg => simp [hk, List.removeAll, List.eraseDups_cons]

namespace Entries

variable {κ α : Type} {es as new : Entries κ α} {e : κ × α} {j k : κ} {v w : α}

theorem keys_concat : keys (es ++ [e]) = es.keys ++ [e.1] :=
  List.map_append

variable [DecidableEq κ]

theorem put_of_not_mem (h : k ∉ es.keys) : es.put k v = es ++ [(k, v)] := by
  induction es <;> grind [keys, put]

theorem keys_put : (es.put k v).keys = if k ∈ es.keys then es.keys else es.keys ++ [k] := by
  induction es <;> grind [keys, put]

theorem get?_put : (es.put k v).get? j = if j = k then some v else es.get? j := by
  split
  case isTrue h  => rw [h, get?_put_self]
  case isFalse h => exact get?_put_of_ne h v es

theorem get?_of_not_mem (h : k ∉ es.keys) : es.get? k = none := by
  induction es <;> grind [keys, get?]

theorem put_put_self : (es.put k w).put k v = es.put k v := by
  induction es <;> grind [put]

-- A key that is there already keeps its place, whatever is put before it.
theorem put_comm (hk : k ∈ es.keys) (hj : j ≠ k) :
    (es.put j w).put k v = (es.put k v).put j w := by
  induction es <;> grind [keys, put]

theorem putAll_cons : es.putAll (e :: new) = (es.put e.1 e.2).putAll new :=
  rfl

theorem putAll_append : es.putAll (as ++ new) = (es.putAll as).putAll new :=
  List.foldl_append

theorem put_putAll (hk : k ∈ es.keys) (hn : k ∉ new.keys) :
    (es.putAll new).put k v = (es.put k v).putAll new := by
  induction new generalizing es
  case nil => rfl
  case cons e new hi =>
    rw [keys, List.map_cons, List.mem_cons, not_or] at hn
    have hm : k ∈ (es.put e.1 e.2).keys := mem_keys_put.mpr (.inr hk)
    rw [putAll_cons, putAll_cons, hi hm hn.right, put_comm hk (Ne.symm hn.left)]

theorem putAll_put (h : new.keys.Nodup) : es.putAll (new.put k v) = (es.putAll new).put k v := by
  induction new generalizing es
  case nil => rfl
  case cons e new hi =>
    have ⟨hn, hd⟩ := List.nodup_cons.mp h
    rw [put]
    split
    case isTrue hk =>
      subst hk
      have hm : e.1 ∈ (es.put e.1 e.2).keys := mem_keys_put.mpr (.inl rfl)
      rw [putAll_cons, putAll_cons, put_putAll hm hn, put_put_self]
    case isFalse => rw [putAll_cons, putAll_cons, hi hd]

theorem putAll_nil (h : es.keys.Nodup) : putAll [] es = es := by
  induction es using List.reverseRecOn
  case nil => rfl
  case append_singleton es e hi =>
    rw [keys_concat, List.nodup_append] at h
    have hn : e.1 ∉ keys es := fun hm => h.right.right e.1 hm e.1 List.mem_cons_self rfl
    rw [putAll_append, hi h.left]
    exact put_of_not_mem hn

theorem keys_putAll_nil : (putAll [] es).keys = es.keys.eraseDups := by
  induction es using List.reverseRecOn
  case nil => rfl
  case append_singleton es e hi =>
    have hk : keys (putAll [] (es ++ [e])) = keys ((putAll [] es).put e.1 e.2) := by
      rw [putAll_append]
      rfl
    rw [hk, keys_put, hi, keys_concat, eraseDups_concat]
    simp only [List.mem_eraseDups]

theorem get?_putAll_nil : (putAll [] es).get? k = get? k es.reverse := by
  induction es using List.reverseRecOn
  case nil => rfl
  case append_singleton es e hi =>
    rw [putAll_append, List.reverse_concat, get?, ← hi]
    simp only [putAll, List.foldl_cons, List.foldl_nil, get?_put, eq_comm]

theorem get?_putAll (h : new.keys.Nodup) :
    (es.putAll new).get? k = (new.get? k).or (es.get? k) := by
  induction new generalizing es
  case nil => rfl
  case cons e new hi =>
    have ⟨hn, hd⟩ := List.nodup_cons.mp h
    rw [putAll_cons, hi hd, get?_put, get?]
    by_cases hk : e.1 = k
    case pos =>
      subst hk
      simp [get?_of_not_mem hn]
    case neg => simp [hk, Ne.symm hk]

end Entries

namespace Keyed

variable {κ α : Type} {m n : Keyed κ α} {as new : Entries κ α}

theorem ext_entries (h : m.entries = n.entries) : m = n := by
  cases m
  cases n
  cases h
  rfl

variable [DecidableEq κ]

theorem ofList_append : ofList (as ++ new) = (ofList as).putAll new :=
  ext_entries Entries.putAll_append

theorem ofList_entries (m : Keyed κ α) : ofList m.entries = m :=
  ext_entries (Entries.putAll_nil m.distinct)

theorem putAll_ofList : m.putAll (ofList new).entries = m.putAll new := by
  apply ext_entries
  induction new using List.reverseRecOn
  case nil => rfl
  case append_singleton new e hi =>
    have hn : (ofList (new ++ [e])).entries = (ofList new).entries.put e.1 e.2 := by
      rw [ofList_append]
      rfl
    calc m.entries.putAll (ofList (new ++ [e])).entries
      _ = m.entries.putAll ((ofList new).entries.put e.1 e.2) := by rw [hn]
      _ = (m.entries.putAll (ofList new).entries).put e.1 e.2 :=
        Entries.putAll_put (ofList new).distinct
      _ = (m.entries.putAll new).put e.1 e.2                  := congrArg _ hi
      _ = m.entries.putAll (new ++ [e])                       := by rw [Entries.putAll_append]; rfl

end Keyed

end Switchboard
