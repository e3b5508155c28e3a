import Switchboard.Json.Basic

namespace Switchboard.Json

def isBlank (c : Char) : Bool :=
  c == ' ' || c == '\n' || c == '\t' || c == '\r'

structure PathError where
  path  : String
  inner : String

def PathError.message (e : PathError) : String :=
  s!"at JSON path {e.path} → {e.inner}"

-- All but the reader of documents read from the front of a text and give back what is left of it:
-- the entries of an object as they come, any value, or an object by its entries.
structure Readers where
  entries  : String → Option (List (String × Json) × String)
  value    : String → Except String (Json × String)
  members  : String → Except PathError (Keyed String Json × String)
  document : String → Except String Json

-- Nothing is asked about what is left.
def ofStringWithPath {α : Type} (read : String → Except PathError (α × String)) (s : String) :
    Except String α :=
  match read s with
  | .ok (x, _) => .ok x
  | .error e => .error e.message

end Switchboard.Json
