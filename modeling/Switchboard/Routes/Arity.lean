import Switchboard.Routes.Basic
import Switchboard.Sequence

namespace Switchboard

namespace Pattern

def arityOfString (s : String) : Nat :=
  (ofString s).arity

def arities (sources : List String) : Keyed String Nat :=
  Keyed.ofList (sources.map fun s => (s, arityOfString s))

end Pattern

-- The keys of a table and their arities, side by side. A key that only catches what falls through
-- has none.
structure ArityIndex where
  keys    : List String
  arities : List (Option Nat)

namespace ArityIndex

def ofRoutes {α : Type} (rs : Routes α) : ArityIndex :=
  ⟨rs.keys, rs.keys.map fun k => ((rs.pattern? k).filter (!·.isWildcard)).map Pattern.arity⟩

def get? (x : ArityIndex) (key : String) : Option Nat :=
  (Sequence.indexOf? x.keys key).bind fun i => x.arities[i]?.map (·.getD 0)

-- The first key of arity `n`. A single key without one takes no arguments.
def firstWith? (x : ArityIndex) (n : Nat) : Option String :=
  match x.keys, x.arities, n with
  | [key], [none], 0 => some key
  | keys, arities, n => (Sequence.indexOf? arities (some n)).bind (keys[·]?)

end ArityIndex

namespace Routes

def dispatch {α : Type} (rs : Routes α) (args : List Value) : Choice α :=
  match (ArityIndex.ofRoutes rs).firstWith? args.length with
  | some key => rs.invoke key args
  | none => rs.fallback

end Routes

end Switchboard
