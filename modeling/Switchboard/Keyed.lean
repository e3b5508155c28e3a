namespace Switchboard

-- Entries in order. The operations below keep keys distinct but do not ask for it.
abbrev Entries (κ α : Type) := List (κ × α)

namespace Entries

variable {κ α : Type} [DecidableEq κ]

def keys (es : Entries κ α) : List κ :=
  List.map Prod.fst es

def put (k : κ) (v : α) : Entries κ α → Entries κ α
  | [] => [(k, v)]
  | (k', v') :: es => if k' = k then (k, v) :: es else (k', v') :: put k v es

def get? (k : κ) : Entries κ α → Option α
  | [] => none
  | (k', v) :: es => if k' = k then some v else get? k es

def putAll (es new : Entries κ α) : Entries κ α :=
  new.foldl (fun es e => es.put e.1 e.2) es

theorem mem_keys_put {k j : κ} {v : α} {es : Entries κ α} :
    j ∈ (es.put k v).keys ↔ j = k ∨ j ∈ es.keys := by
  induction es <;> grind [keys, put]

theorem nodup_keys_put {k : κ} {v : α} {es : Entries κ α} (h : es.keys.Nodup) :
    (es.put k v).keys.Nodup := by
  induction es with
  | nil => simp [put, keys]
  | cons e es ih =>
    have hm : e.1 ∈ (put k v es).keys ↔ e.1 = k ∨ e.1 ∈ keys es := mem_keys_put
    grind [keys, put]

theorem nodup_keys_putAll {es new : Entries κ α} (h : es.keys.Nodup) :
    (es.putAll new).keys.Nodup := by
  induction new generalizing es with
  | nil => exact h
  | cons e new ih => exact ih (nodup_keys_put h)

theorem get?_put_self (k : κ) (v : α) (es : Entries κ α) : (es.put k v).get? k = some v := by
  induction es <;> grind [put, get?]

theorem get?_put_of_ne {k j : κ} (h : j ≠ k) (v : α) (es : Entries κ α) :
    (es.put k v).get? j = es.get? j := by
  induction es <;> grind [put, get?]

end Entries

structure Keyed (κ α : Type) where
  entries  : Entries κ α
  distinct : entries.keys.Nodup

namespace Keyed

variable {κ α : Type}

def empty : Keyed κ α :=
  ⟨[], List.nodup_nil⟩

def keys (m : Keyed κ α) : List κ :=
  m.entries.keys

variable [DecidableEq κ]

def put (k : κ) (v : α) (m : Keyed κ α) : Keyed κ α :=
  ⟨m.entries.put k v, Entries.nodup_keys_put m.distinct⟩

def get? (k : κ) (m : Keyed κ α) : Option α :=
  m.entries.get? k

def putAll (m : Keyed κ α) (new : Entries κ α) : Keyed κ α :=
  ⟨m.entries.putAll new, Entries.nodup_keys_putAll m.distinct⟩

def ofList (es : Entries κ α) : Keyed κ α :=
  empty.putAll es

end Keyed

end Switchboard
