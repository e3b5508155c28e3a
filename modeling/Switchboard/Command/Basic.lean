namespace Switchboard

structure Selection where
  sources  : List String
  perLine  : Bool
  pointer? : Option String
  query?   : Option String

structure Evaluation where
  patternFile : String
  selection   : Selection
  positional  : Bool
  strict      : Bool
  output?     : Option String

inductive Command
  | parse (patterns : List String)
  | arity (patterns : List String)
  | check (patterns : List String) (patternFile? : Option String)
  | eval (e : Evaluation)

end Switchboard
