import Switchboard.Keyed
import Switchboard.Binary64

namespace Switchboard

-- The integers that JSON numbers are kept exactly as, from -2^63 and below 2^64. All other numbers
-- are doubles.
abbrev Whole := { i : Int // -0x8000000000000000 ≤ i ∧ i < 0x10000000000000000 }

-- Not a number and the infinities have no JSON text.
abbrev Real := { x : Binary64 // x.isFinite }

inductive Json
  | null
  | bool (b : Bool)
  | whole (i : Whole)
  | real (x : Real)
  | text (s : String)
  | array (items : List Json)
  | object (members : List (String × Json))
deriving Inhabited

namespace Json

def ofInt64 (i : Int64) : Json :=
  .whole ⟨i.toInt, i.le_toInt, Int.lt_trans i.toInt_lt (by decide)⟩

-- A length or position, which is far below the bound in any program that runs.
def ofNat (n : Nat) : Json :=
  if h : (n : Int) < 0x10000000000000000 then .whole ⟨n, by omega, h⟩ else .null

def ofBinary64 (x : Binary64) : Json :=
  if h : x.isFinite then .real ⟨x, h⟩ else .null

def get? (k : String) : Json → Option Json
  | .object ms => Entries.get? k ms
  | _ => none

end Json

end Switchboard
