import Switchboard.Value.Basic
import Switchboard.Pattern.Form
import Switchboard.Registry

namespace Switchboard

namespace Value

mutual

-- Each JSON object outside all others becomes a new object, whose identity is the next free one.
-- What is inside it stays JSON.
def ofJson (next : Nat) : Json → Value × Nat
  | .null => (null, next)
  | .bool b => (bool b, next)
  | .whole i => ((Word.ofInt? i.val).elim (float (.ofInt i.val)) int, next)
  | .real x => (float x.val, next)
  | .text s => (text s, next)
  | .array xs => ((ofItems next xs).map list id)
  | .object ms => (object ⟨next, mapTypeName, .members ms⟩, next + 1)

def ofItems (next : Nat) : List Json → List Value × Nat
  | [] => ([], next)
  | x :: xs =>
    let (v, next) := ofJson next x
    let (vs, next) := ofItems next xs
    (v :: vs, next)

end

mutual

-- Objects without members are written by the name of their type.
def toJson : Value → Json
  | null => .null
  | bool b => .bool b
  | int i => .ofInt64 i
  | float x => .ofBinary64 x
  | text s => .text s
  | list vs => .array (toItems vs)
  | object o =>
    match o.payload with
    | .members ms => .object ms
    | _ => .object [("$object", .text o.typeName)]

def toItems : List Value → List Json
  | [] => []
  | v :: vs => v.toJson :: toItems vs

end

mutual

def shown : Value → String
  | null => "Null"
  | bool b => s!"Bool({b})"
  | int i => s!"Int({i.toInt})"
  | float x => "Float(" ++ String.ofList (Decimal.Layout.screen.write x) ++ ")"
  | text s => "Str(" ++ Text.escaped s ++ ")"
  | list vs => "List([" ++ ", ".intercalate (shownAll vs) ++ "])"
  | object o => s!"Object(Object({o.typeName}))"

def shownAll : List Value → List String
  | [] => []
  | v :: vs => v.shown :: shownAll vs

end

end Value

end Switchboard
