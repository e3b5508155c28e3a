import Switchboard.Routes.Basic
import Switchboard.Registry

namespace Switchboard

namespace Literal

def accepts (l : Literal) : Value → Bool
  | .int i =>
    match l.constant with
    | .int j => i == j
    | c => c.toBinary64?.any (Binary64.ofInt i.toInt).equals
  | .float x => l.constant.toBinary64?.any x.equals
  | .text s => s == l.source
  | .bool b => l.source == if b then "true" else "false"
  | _ => false

end Literal

namespace Pattern

mutual

def bind? : Pattern → Value → Option (List Value)
  | wildcard, _ => some []
  | name _, v => some [v]
  | literal l, v => if l.accepts v then some [] else none
  | list ps, .list vs => bindAll? ps vs
  | _, _ => none

def bindAll? : List Pattern → List Value → Option (List Value)
  | [], [] => some []
  | p :: ps, v :: vs =>
    match p.bind? v, bindAll? ps vs with
    | some xs, some ys => some (xs ++ ys)
    | _, _ => none
  | _, _ => none

end

mutual

def openness : Pattern → Nat
  | wildcard => 1
  | name _ => 1
  | literal _ => 0
  | list ps => opennessAll ps
  | cells _ => 0

def opennessAll : List Pattern → Nat
  | [] => 0
  | p :: ps => p.openness + opennessAll ps

end

end Pattern

structure Candidate (α : Type) where
  route    : Route α
  openness : Nat
  bound    : List Value

namespace Candidate

variable {α : Type}

def ofRoute? (vs : List Value) (r : Route α) : Option (Candidate α) :=
  match r.pattern with
  | .list ps => (Pattern.bindAll? ps vs).map (⟨r, Pattern.opennessAll ps, ·⟩)
  | _ => none

def best? : List (Candidate α) → Option (Candidate α)
  | [] => none
  | c :: cs =>
    match best? cs with
    | some d => if d.openness < c.openness then some d else some c
    | none => some c

end Candidate

namespace Routes

variable {α : Type}

def matchScalar (rs : Routes α) (v : Value) : Choice α :=
  if v.isEmptyScalar then rs.fallback
  else
    match rs.competing.find? (·.pattern.literal?.any (·.accepts v)) with
    | some r => rs.invoke r.key []
    | none => rs.fallback

def matchList (rs : Routes α) (vs : List Value) : Choice α :=
  match Candidate.best? (rs.competing.filterMap (Candidate.ofRoute? vs)) with
  | some c => rs.invoke c.route.key c.bound
  | none => rs.fallback

def matchObject (rs : Routes α) (registry : Registry) (o : Object) : Choice α :=
  let names (r : Route α) := r.pattern.name?.any fun n => registry.contains n && n == o.typeName
  match rs.competing.find? names with
  | some r => rs.invoke r.key []
  | none => rs.fallback

def matchIn (rs : Routes α) (registry : Registry) : Value → Choice α
  | .list vs => rs.matchList vs
  | .object o => rs.matchObject registry o
  | v => rs.matchScalar v

def matchValue (rs : Routes α) (v : Value) : Choice α :=
  rs.matchIn .builtin v

end Routes

end Switchboard
