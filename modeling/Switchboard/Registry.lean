namespace Switchboard

def mapTypeName : String := "Map"

structure Registry where
  names    : List String
  distinct : names.Nodup

namespace Registry

def empty : Registry :=
  ⟨[], List.nodup_nil⟩

def contains (r : Registry) (name : String) : Bool :=
  r.names.contains name

theorem nodup_append_singleton {names : List String} {name : String} (hd : names.Nodup)
    (hn : name ∉ names) : (names ++ [name]).Nodup := by
  grind [List.nodup_append]

-- A name that is there already keeps its place.
def register (r : Registry) (name : String) : Registry :=
  if h : name ∈ r.names then r else ⟨r.names ++ [name], nodup_append_singleton r.distinct h⟩

def builtin : Registry :=
  ["IO", "State", "Reader", "Maybe", "ListMonad", mapTypeName].foldl register empty

end Registry

end Switchboard
