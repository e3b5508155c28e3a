import Switchboard.Routes.Match

namespace Switchboard

structure Scope where
  routes : Routes Value

namespace Scope

-- A wildcard among the names passes its value on to the rest; names without a value stand for null.
-- The literal of a name keeps it verbatim, whatever characters it holds.
def bindNames (rs : Routes Value) (rest : List Value) :
    List String → List Value → Routes Value × List Value
  | [], vs => (rs, rest ++ vs)
  | n :: ns, vs =>
    let v := vs.headD .null
    if n = "_" then bindNames rs (rest ++ [v]) ns vs.tail
    else bindNames (rs.insert ("\"" ++ n ++ "\"") v) rest ns vs.tail

def ofNames (names : List String) (values : List Value) : Scope :=
  let (rs, rest) := bindNames .empty [] names values
  ⟨rs.insert "_" (.list rest)⟩

def resolve (s : Scope) (name : String) : Value :=
  (s.routes.matchScalar (.text name)).answer (fun r _ => r.handler) (.bool false)

def resolveAll (s : Scope) (names : List String) : List Value :=
  names.map s.resolve

end Scope

end Switchboard
