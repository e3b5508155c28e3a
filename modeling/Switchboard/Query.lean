import Switchboard.Host
import Switchboard.Text.Escaped

namespace Switchboard

structure Query (π : Type) where
  source  : String
  program : π

namespace Query

inductive Fault
  | notParsed (source detail : String)
  | undefined (source names : String)
  | failed (cause : String)

def Fault.message : Fault → String
  | notParsed s detail => s!"jq filter `{s}` does not parse: {detail}"
  | undefined s names => s!"jq filter `{s}` uses undefined {names}"
  | failed cause => s!"jq runtime error: {cause}"

def parseFault (source : String) (details : List String) : Fault :=
  .notParsed source ("; ".intercalate details)

def undefinedFault (source : String) (names : List (List (String × String))) : Fault :=
  .undefined source (", ".intercalate (names.flatten.map fun (name, kind) => s!"`{name}` ({kind})"))

variable {σ μ π : Type} (h : Host σ μ π)

def compile (source : String) : Except Fault (Query π) := do
  let loaded ← (h.load source).mapError (parseFault source)
  let program ← (h.compile loaded).mapError (undefinedFault source)
  return ⟨source, program⟩

def run (q : Query π) (x : Json) : Except Fault (List Json) :=
  (h.outputs q.program x).mapM (·.mapError .failed)

def shown (q : Query π) : String :=
  "JqFilter(" ++ Text.escaped q.source ++ ")"

end Query

end Switchboard
