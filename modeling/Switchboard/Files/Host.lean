import Switchboard.Files
import Switchboard.Glob.Expand
import Switchboard.Host
import Switchboard.Jq.Run
import Switchboard.Json.Pointer
import Switchboard.Json.Reader

namespace Switchboard

def Jq.Filter.load (source : String) : Except (List String) Jq.Filter :=
  match (Jq.Token.ofString? source).bind ofTokens? with
  | none => .error []
  | some f => .ok f

def Jq.Filter.compile (f : Jq.Filter) : Except (List (List (String × String))) Jq.Filter :=
  if f.undefined.isEmpty then .ok f else .error [f.undefined]

def Jq.Filter.outputs (f : Jq.Filter) (x : Json) : List (Except String Json) :=
  (f.run (.ofJson x)).map fun y => (y.map Jq.Datum.toJson).mapError (·.message)

def Glob.entries (fs : Files) (source : String) :
    Except String (List (Except String String)) :=
  match Glob.ofString source with
  | .error m => .error m.message
  | .ok g => .ok ((g.expand fs).map .ok)

-- A tree of files. Its queries are a part of jq only; nothing is proved about them, or about globs,
-- but of any host.
def Files.host : Host Files Jq.Filter Jq.Filter where
  readers := Json.readers
  pointer? := Json.pointer?
  load := Jq.Filter.load
  compile := Jq.Filter.compile
  outputs := Jq.Filter.outputs
  glob := Glob.entries
  readText fs path := (fs.readText path).mapError (·.message)
  createDirAll fs path := (fs.createDirAll path).map (·.mapError (·.message)) id
  write fs path content := (fs.write path content).map (·.mapError (·.message)) id

end Switchboard
