import Switchboard.Json.Basic

namespace Switchboard

-- What an object holds: the members of a JSON object, an integer under a tag that its owner knows,
-- or something that is never looked at.
inductive Payload
  | members (ms : List (String × Json))
  | tagged (tag : String) (n : Int64)
  | hidden

-- Objects are told apart by their identity alone.
structure Object where
  identity : Nat
  typeName : String
  payload  : Payload

inductive Value
  | null
  | bool (b : Bool)
  | int (i : Int64)
  | float (x : Binary64)
  | text (s : String)
  | list (vs : List Value)
  | object (o : Object)

namespace Value

mutual

-- An integer equals a double if it rounds to it. Objects are equal if they are the same object.
def equals : Value → Value → Bool
  | null, null => true
  | bool a, bool b => a == b
  | int i, int j => i == j
  | float x, float y => x.equals y
  | int i, float y => (Binary64.ofInt i.toInt).equals y
  | float x, int j => (Binary64.ofInt j.toInt).equals x
  | text s, text t => s == t
  | list vs, list ws => equalsAll vs ws
  | object o, object q => o.identity == q.identity
  | _, _ => false

def equalsAll : List Value → List Value → Bool
  | [], [] => true
  | v :: vs, w :: ws => v.equals w && equalsAll vs ws
  | _, _ => false

end

instance : BEq Value :=
  ⟨equals⟩

def isNull : Value → Bool
  | null => true
  | _ => false

def isList : Value → Bool
  | list _ => true
  | _ => false

def isEmptyScalar : Value → Bool
  | null => true
  | text s => s.isEmpty
  | _ => false

def int64? : Value → Option Int64
  | int i => some i
  | float x => x.toInt64?
  | _ => none

def binary64? : Value → Option Binary64
  | int i => some (.ofInt i.toInt)
  | float x => some x
  | _ => none

def text? : Value → Option String
  | text s => some s
  | _ => none

def list? : Value → Option (List Value)
  | list vs => some vs
  | _ => none

def object? : Value → Option Object
  | object o => some o
  | _ => none

end Value

end Switchboard
