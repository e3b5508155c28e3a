import Switchboard.Routes.Arity
import Switchboard.Pattern.Form

namespace Switchboard

def Routes.shown {α : Type} (rs : Routes α) : String :=
  let entry (r : Route α) := Text.escaped r.key ++ ": " ++ r.pattern.shown
  "\x7b" ++ ", ".intercalate (rs.routes.map entry) ++ "\x7d"

namespace ArityIndex

def arityShown : Option Nat → String
  | some n => s!"Some({n})"
  | none => "None"

def shown (x : ArityIndex) : String :=
  "ArityIndex \x7b keys: [" ++ ", ".intercalate (x.keys.map Text.escaped) ++
    "], arities: [" ++ ", ".intercalate (x.arities.map arityShown) ++ "] \x7d"

end ArityIndex

end Switchboard
