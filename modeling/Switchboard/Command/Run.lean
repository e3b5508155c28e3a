import Switchboard.Command.Eval
import Switchboard.Pattern.Form
import Switchboard.Path

namespace Switchboard.Command

-- What a command prints, and its failure. A command that fails may have printed before.
structure Report where
  printed : String
  fault?  : Option Fault

namespace Report

def prints (s : String) : Report :=
  ⟨s, none⟩

def fails (f : Fault) : Report :=
  ⟨"", some f⟩

end Report

def parsed (patterns : List String) : Json :=
  .array <| patterns.map fun p =>
    .object [("pattern", .text p), ("spec", (Pattern.ofString p).toJson)]

def arities (patterns : List String) : Json :=
  .object <| (Pattern.arities patterns).entries.map fun (p, n) => (p, .ofNat n)

def painted (colored : Bool) (code word : String) : String :=
  if colored then "\x1b[" ++ code ++ "m" ++ word ++ "\x1b[0m" else word

def verdict (colored : Bool) (pattern : String) : String :=
  match Pattern.ofStringStrict pattern with
  | .ok _ => painted colored "32" "ok" ++ " " ++ pattern ++ "\n"
  | .error m => painted colored "1;31" "error" ++ " " ++ pattern ++ ": " ++ m.message ++ "\n"

def isMalformed (pattern : String) : Bool :=
  match Pattern.ofStringStrict pattern with
  | .ok _ => false
  | .error _ => true

def checked (colored : Bool) (patterns : List String) : Report :=
  if patterns.isEmpty then .fails .nothingToCheck
  else
    let n := patterns.countP isMalformed
    { printed := String.join (patterns.map (verdict colored))
      fault? := if n = 0 then none else some (.malformedPatterns n patterns.length) }

variable {σ μ π : Type} (h : Host σ μ π)

def place (fs : σ) (path : String) : Except Fault Unit × σ :=
  match Path.parent? path with
  | none => (.ok (), fs)
  | some dir =>
    let (made, fs) := h.createDirAll fs dir
    (made.mapError .outputUnplaced, fs)

def save (fs : σ) (path content : String) : Except Fault Unit × σ :=
  match place h fs path with
  | (.error f, fs) => (.error f, fs)
  | (.ok (), fs) =>
    let (written, fs) := h.write fs path content
    (written.mapError (.outputUnwritten path), fs)

def evaluated (fs : σ) (e : Evaluation) : Report × σ :=
  match e.output h fs, e.output? with
  | .error f, _ => (.fails f, fs)
  | .ok s, none => (.prints s, fs)
  | .ok s, some path =>
    match save h fs path s with
    | (.error f, fs) => (.fails f, fs)
    | (.ok (), fs) => (.prints "", fs)

def run (colored : Bool) (fs : σ) : Command → Report × σ
  | parse ps => (.prints ((parsed ps).pretty ++ "\n"), fs)
  | arity ps => (.prints ((arities ps).pretty ++ "\n"), fs)
  | check ps none => (checked colored ps, fs)
  | check ps (some path) =>
    match templates h fs path with
    | .error f => (.fails f, fs)
    | .ok file => (checked colored (ps ++ file.keys), fs)
  | eval e => evaluated h fs e

end Switchboard.Command
