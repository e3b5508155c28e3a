import Switchboard.Jq.Filter

namespace Switchboard.Jq

def Comparison.isEquality : Comparison → Bool
  | equal | unequal => true
  | _ => false

namespace Filter

def expect? (c : Char) : List Token → Option (List Token)
  | .mark d :: ts => if d = c then some ts else none
  | _ => none

def questions : List Token → Bool × List Token
  | .mark '?' :: ts => (true, (questions ts).2)
  | ts => (false, ts)

def key (k : String) : Filter :=
  .constant (.text k)

mutual

-- Pipes bind weakest and to the right. In an entry of an object no commas stand between them.
def pipe? : Nat → Bool → List Token → Option (Filter × List Token)
  | 0, _, _ => none
  | n + 1, commas, ts => do
    let (f, ts) ← if commas then comma? n ts else equality? n ts
    match ts with
    | .pipe :: ts =>
      let (g, ts) ← pipe? n commas ts
      return (.pipe f g, ts)
    | ts => return (f, ts)

def comma? : Nat → List Token → Option (Filter × List Token)
  | 0, _ => none
  | n + 1, ts => do
    let (f, ts) ← equality? n ts
    match ts with
    | .mark ',' :: ts =>
      let (g, ts) ← comma? n ts
      return (.comma f g, ts)
    | ts => return (f, ts)

-- Comparisons bind to the left, and those for order bind stronger than those for equality.
def equality? : Nat → List Token → Option (Filter × List Token)
  | 0, _ => none
  | n + 1, ts => do
    let (f, ts) ← relation? n ts
    equalities? n f ts

def equalities? : Nat → Filter → List Token → Option (Filter × List Token)
  | 0, _, _ => none
  | n + 1, f, ts =>
    match ts with
    | .comparison c :: rest =>
      if c.isEquality then do
        let (g, ts) ← relation? n rest
        equalities? n (.compare c f g) ts
      else some (f, ts)
    | ts => some (f, ts)

def relation? : Nat → List Token → Option (Filter × List Token)
  | 0, _ => none
  | n + 1, ts => do
    let (f, ts) ← term? n ts
    relations? n f ts

def relations? : Nat → Filter → List Token → Option (Filter × List Token)
  | 0, _, _ => none
  | n + 1, f, ts =>
    match ts with
    | .comparison c :: rest =>
      if c.isEquality then some (f, ts)
      else do
        let (g, ts) ← term? n rest
        relations? n (.compare c f g) ts
    | ts => some (f, ts)

def term? : Nat → List Token → Option (Filter × List Token)
  | 0, _ => none
  | n + 1, ts =>
    match ts with
    | .minus :: ts => (term? n ts).map fun (f, ts) => (.negate f, ts)
    | ts => do
      let (f, ts) ← atom? n ts
      let (optional, ts) := questions ts
      let f := if optional then .attempt f else f
      let (steps, ts) ← steps? n ts
      return (if steps.isEmpty then f else .path f steps, ts)

-- The steps after a filter. A question mark covers only the step before it.
def steps? : Nat → List Token → Option (List (Step Filter × Bool) × List Token)
  | 0, _ => none
  | n + 1, ts =>
    match ts with
    | .field k :: ts => stepsAfter? n (.child (key k)) ts
    | .dot :: .text k :: ts => stepsAfter? n (.child (key k)) ts
    | .dot :: .mark '[' :: ts => do
      let (s, ts) ← bracket? n ts
      stepsAfter? n s ts
    | .mark '[' :: ts => do
      let (s, ts) ← bracket? n ts
      stepsAfter? n s ts
    | .dot :: _ => none
    | ts => some ([], ts)

def stepsAfter? : Nat → Step Filter → List Token →
    Option (List (Step Filter × Bool) × List Token)
  | 0, _, _ => none
  | n + 1, s, ts => do
    let (optional, ts) := questions ts
    let (steps, ts) ← steps? n ts
    return ((s, optional) :: steps, ts)

def bracket? : Nat → List Token → Option (Step Filter × List Token)
  | 0, _ => none
  | n + 1, ts =>
    match ts with
    | .mark ']' :: ts => some (.each, ts)
    | .mark ':' :: ts => do
      let (g, ts) ← pipe? n true ts
      return (.slice none (some g), ← expect? ']' ts)
    | ts => do
      let (f, ts) ← pipe? n true ts
      match ts with
      | .mark ':' :: .mark ']' :: ts => return (.slice (some f) none, ts)
      | .mark ':' :: ts =>
        let (g, ts) ← pipe? n true ts
        return (.slice (some f) (some g), ← expect? ']' ts)
      | ts => return (.child f, ← expect? ']' ts)

def atom? : Nat → List Token → Option (Filter × List Token)
  | 0, _ => none
  | n + 1, ts =>
    match ts with
    | .field _ :: _ => some (.identity, ts)
    | .dot :: .text _ :: _ => some (.identity, ts)
    | .dot :: ts => some (.identity, ts)
    | .numeral ds :: ts => some (.constant (.ofNumeral ds), ts)
    | .text s :: ts => some (.constant (.text s), ts)
    | .external v :: ts => some (.external v, ts)
    | .word w :: .mark '(' :: ts => do
      let (args, ts) ← arguments? n ts
      return (.call w args, ts)
    | .word w :: ts => some (.call w [], ts)
    | .mark '(' :: ts => do
      let (f, ts) ← pipe? n true ts
      return (f, ← expect? ')' ts)
    | .mark '[' :: .mark ']' :: ts => some (.collect empty, ts)
    | .mark '[' :: ts => do
      let (f, ts) ← pipe? n true ts
      return (.collect f, ← expect? ']' ts)
    | .mark '{' :: ts => do
      let (es, ts) ← entries? n ts
      return (.record es, ts)
    | _ => none

def arguments? : Nat → List Token → Option (List Filter × List Token)
  | 0, _ => none
  | n + 1, ts => do
    let (f, ts) ← pipe? n true ts
    match ts with
    | .mark ';' :: ts =>
      let (fs, ts) ← arguments? n ts
      return (f :: fs, ts)
    | ts => return ([f], ← expect? ')' ts)

def entries? : Nat → List Token → Option (List (Filter × Filter) × List Token)
  | 0, _ => none
  | n + 1, ts =>
    match ts with
    | .mark '}' :: ts => some ([], ts)
    | ts => do
      let (e, ts) ← entry? n ts
      match ts with
      | .mark ',' :: ts =>
        let (es, ts) ← entries? n ts
        return (e :: es, ts)
      | ts => return ([e], ← expect? '}' ts)

def entry? : Nat → List Token → Option ((Filter × Filter) × List Token)
  | 0, _ => none
  | n + 1, ts =>
    match ts with
    | .word k :: .mark ':' :: ts => (pipe? n false ts).map fun (f, ts) => ((key k, f), ts)
    | .text k :: .mark ':' :: ts => (pipe? n false ts).map fun (f, ts) => ((key k, f), ts)
    | .word k :: ts => some ((key k, child identity (key k)), ts)
    | .text k :: ts => some ((key k, child identity (key k)), ts)
    | .external v :: ts => some ((key (v.drop 1).copy, .external v), ts)
    | .mark '(' :: ts => do
      let (k, ts) ← pipe? n true ts
      let ts ← expect? ':' (← expect? ')' ts)
      let (f, ts) ← pipe? n false ts
      return ((k, f), ts)
    | _ => none

end

-- Nine levels of grammar lie between two tokens at most.
def ofTokens? (ts : List Token) : Option Filter :=
  match pipe? (10 * ts.length + 10) true ts with
  | some (f, []) => some f
  | _ => none

end Filter

end Switchboard.Jq
