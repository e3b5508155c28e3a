import Switchboard.Json.Basic
import Switchboard.Decimal.Numeral

namespace Switchboard.Template

def placeholder? (bindings : List Json) (s : String) : Option Json :=
  match s.toList with
  | '$' :: cs => (Decimal.size? cs).bind (bindings[·]?)
  | _ => none

mutual

-- Bindings go in as they are: what looks like a placeholder in them is not one.
def render (bindings : List Json) : Json → Json
  | .text s => (placeholder? bindings s).getD (.text s)
  | .array xs => .array (renderAll bindings xs)
  | .object ms => .object (renderMembers bindings ms)
  | x => x

def renderAll (bindings : List Json) : List Json → List Json
  | [] => []
  | x :: xs => render bindings x :: renderAll bindings xs

def renderMembers (bindings : List Json) : List (String × Json) → List (String × Json)
  | [] => []
  | (k, x) :: ms => (k, render bindings x) :: renderMembers bindings ms

end

end Switchboard.Template
