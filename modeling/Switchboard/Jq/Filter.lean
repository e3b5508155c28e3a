import Switchboard.Jq.Step
import Switchboard.Jq.Token

namespace Switchboard.Jq

-- The flag of a step tells whether its errors are dropped.
inductive Filter
  | identity
  | constant (x : Datum)
  | path (start : Filter) (steps : List (Step Filter × Bool))
  | attempt (f : Filter)
  | negate (f : Filter)
  | pipe (f g : Filter)
  | comma (f g : Filter)
  | compare (c : Comparison) (f g : Filter)
  | collect (f : Filter)
  | record (entries : List (Filter × Filter))
  | external (name : String)
  | call (name : String) (args : List Filter)

namespace Filter

def empty : Filter :=
  .call "empty" []

def child (f key : Filter) : Filter :=
  .path f [(.child key, false)]

def functions : List (String × Nat) :=
  [("empty", 0), ("length", 0), ("null", 0), ("true", 0), ("false", 0), ("select", 1)]

mutual

def undefined : Filter → List (String × String)
  | identity | constant _ => []
  | path f steps => undefined f ++ undefinedSteps steps
  | attempt f => undefined f
  | negate f => undefined f
  | collect f => undefined f
  | pipe f g => undefined f ++ undefined g
  | comma f g => undefined f ++ undefined g
  | compare _ f g => undefined f ++ undefined g
  | record es => undefinedEntries es
  | external v => [(v, "Var")]
  | call name args =>
    undefinedAll args ++
      (if functions.contains (name, args.length) then []
      else [(name, s!"Filter({args.length})")])

def undefinedAll : List Filter → List (String × String)
  | [] => []
  | f :: fs => undefined f ++ undefinedAll fs

def undefinedEntries : List (Filter × Filter) → List (String × String)
  | [] => []
  | (k, f) :: es => undefined k ++ undefined f ++ undefinedEntries es

def undefinedSteps : List (Step Filter × Bool) → List (String × String)
  | [] => []
  | (s, _) :: steps => undefinedStep s ++ undefinedSteps steps

def undefinedStep : Step Filter → List (String × String)
  | .child key => undefined key
  | .each => []
  | .slice lower upper => undefinedBound lower ++ undefinedBound upper

def undefinedBound : Option Filter → List (String × String)
  | none => []
  | some f => undefined f

end

end Filter

end Switchboard.Jq
