import Switchboard.Jq.Parse

namespace Switchboard.Jq

def Comparison.holds : Comparison → Ordering → Bool
  | equal, o => o == .eq
  | unequal, o => o != .eq
  | less, o => o == .lt
  | atMost, o => o != .gt
  | greater, o => o == .gt
  | atLeast, o => o != .lt

-- What comes out of a filter, in order. An error is one of the outputs, and more may follow it.
abbrev Outputs (α : Type) := List (Except RuntimeError α)

namespace Outputs

variable {α β γ : Type}

def ofExcept : Except RuntimeError (List α) → Outputs α
  | .ok xs => xs.map .ok
  | .error e => [.error e]

def andThen (o : Outputs α) (f : α → Outputs β) : Outputs β :=
  o.flatMap fun
    | .ok x => f x
    | .error e => [.error e]

-- Every output of `o` with every output of `p`. Of two errors the one from `o` is taken, but if `p`
-- has no outputs there are none at all.
def pairs (o : Outputs α) (p : Outputs β) (f : α → β → Except RuntimeError γ) : Outputs γ :=
  o.flatMap fun x => p.map fun y => do f (← x) (← y)

def withoutErrors (o : Outputs α) : Outputs α :=
  o.filter Except.isOk

def collect (o : Outputs α) : Except RuntimeError (List α) :=
  o.mapM id

end Outputs

def walk : List (Step Datum × Bool) → Datum → Outputs Datum
  | [], x => [.ok x]
  | (s, optional) :: steps, x =>
    let o := Outputs.ofExcept (x.step s)
    (if optional then o.withoutErrors else o).andThen (walk steps)

namespace Filter

def runNullary (name : String) (x : Datum) : Outputs Datum :=
  if name = "length" then [x.length]
  else if name = "null" then [.ok .null]
  else if name = "true" then [.ok (.bool true)]
  else if name = "false" then [.ok (.bool false)]
  else []

def member : Datum → Datum → Except RuntimeError (List (String × Datum))
  | .text k, x => .ok [(k, x)]
  | k, _ => .error (.notText k)

mutual

def run (x : Datum) : Filter → Outputs Datum
  | identity => [.ok x]
  | constant y => [.ok y]
  | path f steps => (run x f).andThen fun y => (runSteps x steps).andThen fun s => walk s y
  | attempt f => (run x f).withoutErrors
  | negate f => (run x f).map (· >>= Datum.negated)
  | pipe f g => (run x f).andThen fun y => run y g
  | comma f g => run x f ++ run x g
  | compare c f g => (run x f).pairs (run x g) fun y z => .ok (.bool (c.holds (y.order z)))
  | collect f => [(run x f).collect.map .array]
  | record es => (runEntries x [.ok []] es).map (·.map .object)
  | external _ => []
  | call name args => runCall x name args

-- The members so far with those of the entries that are left. A repeated key keeps its place and
-- takes the later value.
def runEntries (x : Datum) (made : Outputs (List (String × Datum))) :
    List (Filter × Filter) → Outputs (List (String × Datum))
  | [] => made
  | (k, f) :: es =>
    let new := (run x k).pairs (run x f) member
    runEntries x (made.pairs new fun ms ns => .ok (Entries.putAll ms ns)) es

def runCall (x : Datum) (name : String) : List Filter → Outputs Datum
  | [] => runNullary name x
  | f :: _ => (run x f).andThen fun y => if y.isTrue then [.ok x] else []

-- Keys and bounds are taken from `x`, wherever the path starts, and before any step is made.
def runSteps (x : Datum) : List (Step Filter × Bool) → Outputs (List (Step Datum × Bool))
  | [] => [.ok []]
  | (s, optional) :: steps =>
    (runStep x s).andThen fun s =>
      (runSteps x steps).andThen fun rest => [.ok ((s, optional) :: rest)]

def runStep (x : Datum) : Step Filter → Outputs (Step Datum)
  | .child key => (run x key).map (·.map .child)
  | .each => [.ok .each]
  | .slice lower upper =>
    (runBound x lower).andThen fun a => (runBound x upper).map (·.map (.slice a))

def runBound (x : Datum) : Option Filter → Outputs (Option Datum)
  | none => [.ok none]
  | some f => (run x f).map (·.map some)

end

end Filter

end Switchboard.Jq
