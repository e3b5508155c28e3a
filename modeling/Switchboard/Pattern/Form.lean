import Switchboard.Pattern.Basic
import Switchboard.Json.Printer
import Switchboard.Text.Escaped

namespace Switchboard

namespace Constant

def toJson : Constant → Json
  | int i => .ofInt64 i
  | float x => .ofBinary64 x
  | text s => .text s

def shown : Constant → String
  | int i => s!"Int({i.toInt})"
  | float x => "Float(" ++ String.ofList (Decimal.Layout.screen.write x) ++ ")"
  | text s => s!"Str({Text.escaped s})"

end Constant

namespace Literal

def toJson (l : Literal) : Json :=
  .object [("text", .text l.source), ("value", l.constant.toJson)]

def shown (l : Literal) : String :=
  "Literal \x7b text: " ++ Text.escaped l.source ++ ", value: " ++ l.constant.shown ++ " \x7d"

end Literal

namespace Pattern

def form (kind : String) (value : Json) : Json :=
  .object [("kind", .text kind), ("value", value)]

mutual

def toJson : Pattern → Json
  | wildcard => .object [("kind", .text "wildcard")]
  | literal l => form "literal" l.toJson
  | name n => form "ident" (.text n)
  | list ps => form "list" (.array (toJsonAll ps))
  | cells ps => form "cons" (.array (toJsonAll ps))

def toJsonAll : List Pattern → List Json
  | [] => []
  | p :: ps => p.toJson :: toJsonAll ps

end

mutual

def source : Pattern → String
  | wildcard => "_"
  | literal l => "\"" ++ l.source ++ "\""
  | name n => n
  | list ps => "[" ++ ", ".intercalate (sourceAll ps) ++ "]"
  | cells ps => "(" ++ ":".intercalate (sourceAll ps) ++ ")"

def sourceAll : List Pattern → List String
  | [] => []
  | p :: ps => p.source :: sourceAll ps

end

mutual

def shown : Pattern → String
  | wildcard => "Wildcard"
  | literal l => s!"Literal({l.shown})"
  | name n => s!"Ident({Text.escaped n})"
  | list ps => "List([" ++ ", ".intercalate (shownAll ps) ++ "])"
  | cells ps => "Cons([" ++ ", ".intercalate (shownAll ps) ++ "])"

def shownAll : List Pattern → List String
  | [] => []
  | p :: ps => p.shown :: shownAll ps

end

end Pattern

end Switchboard
