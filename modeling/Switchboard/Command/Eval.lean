import Switchboard.Command.Documents
import Switchboard.Routes.Arity
import Switchboard.Routes.Match
import Switchboard.Template
import Switchboard.Value.Json

namespace Switchboard

namespace Routes

def lineOf (c : Choice Json) : Json :=
  c.answer
    (fun r args =>
      let bindings := args.map Value.toJson
      .object
        [ ("pattern", .text r.key), ("result", Template.render bindings r.handler),
          ("bindings", .array bindings) ])
    (.bool false)

end Routes

namespace Evaluation

open Command

def value (x : Json) : Value :=
  (Value.ofJson 0 x).1

def line (e : Evaluation) (rs : Routes Json) (x : Json) : Except Fault Json :=
  if e.positional then
    match (value x).list? with
    | some args => .ok (Routes.lineOf (rs.dispatch args))
    | none => .error (.documentNotPositional (value x).toJson)
  else .ok (Routes.lineOf (rs.matchValue (value x)))

section

variable {σ μ π : Type} (h : Host σ μ π)

def documentLines (e : Evaluation) (rs : Routes Json) (query? : Option (Query π)) (path : String)
    (document : String) (number : Nat) : Except Fault (List Json) := do
  let x ← (h.readers.document document).mapError (.documentInvalid path number)
  (← e.selection.nodes h query? path x).mapM (e.line rs)

def fileLines (fs : σ) (e : Evaluation) (rs : Routes Json) (query? : Option (Query π))
    (path : String) : Except Fault (List Json) := do
  let content ← (h.readText fs path).mapError (.sourceUnread path)
  let documents := (e.selection.documents content).zipIdx 1
  return (← documents.mapM fun d => e.documentLines h rs query? path d.1 d.2).flatten

end

end Evaluation

namespace Command

variable {σ μ π : Type} (h : Host σ μ π)

def templates (fs : σ) (path : String) : Except Fault (Keyed String Json) := do
  let content ← (h.readText fs path).mapError (.patternFileUnread path)
  (Json.ofStringWithPath h.readers.members content).mapError (.patternFileInvalid path)

def checkKeys (path : String) (keys : List String) : Except Fault Unit :=
  keys.forM fun k =>
    match Pattern.ofStringStrict k with
    | .ok _ => .ok ()
    | .error m => .error (.patternMalformed path m)

end Command

namespace Evaluation

open Command

variable {σ μ π : Type} (h : Host σ μ π)

def lines (fs : σ) (e : Evaluation) : Except Fault (List Json) := do
  let file ← templates h fs e.patternFile
  if e.strict then checkKeys e.patternFile file.keys
  let query? ← e.selection.compiled h
  let paths ← e.selection.paths h fs
  return (← paths.mapM (e.fileLines h fs (.ofList file.entries) query?)).flatten

def output (fs : σ) (e : Evaluation) : Except Fault String :=
  (e.lines h fs).map fun xs => String.join (xs.map (·.compact ++ "\n"))

end Evaluation

end Switchboard
