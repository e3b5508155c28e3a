import Switchboard.Command.Arguments
import Switchboard.Command.Run
import Switchboard.Files.Host

namespace Switchboard.Disk

def outline? (place : FileTree.Place) : IO (Option FileTree) := do
  let path := (← IO.currentDir) / ("/" ++ "/".intercalate place)
  if ← path.isDir then return some (.dir [])
  else if ← path.pathExists then return some (.file .empty)
  else return none

def look (fs : Files) (p : FilePath) : IO (Files × FileTree.Place) := do
  let mut fs := fs
  let mut place := fs.start p
  for name in p.names do
    match fs.step place name with
    | .ok next => place := next
    | .error .notFound =>
      match ← outline? (place ++ [name]) with
      | some t =>
        place := place ++ [name]
        fs := fs.put place t
      | none => return (fs, place)
    | .error _ => return (fs, place)
  return (fs, place)

def load (fs : Files) (path : String) : IO Files := do
  match FilePath.ofString? path with
  | none => return fs
  | some p =>
    let (fs, place) ← look fs p
    match fs.root.get? place with
    | some (.file _) =>
      let content ← IO.FS.readBinFile ((← IO.currentDir) / ("/" ++ "/".intercalate place))
      return fs.put place (.file content)
    | _ => return fs

def listing (place : FileTree.Place) : Nat → IO FileTree
  | 0 => return .dir []
  | depth + 1 => do
    let path := (← IO.currentDir) / ("/" ++ "/".intercalate place)
    let entries ← path.readDir
    .dir <$> entries.toList.mapM fun e => do
      if ← e.path.isDir then return (e.fileName, ← listing (place ++ [e.fileName]) depth)
      else return (e.fileName, .file .empty)

-- The deepest directories that `**` is looked for in.
def deepest : Nat :=
  64

-- Takes in what a glob may describe: all that stands below its parts without wildcards.
def survey (fs : Files) (g : Glob) : IO Files := do
  let names := g.parts.map Glob.Part.literal?
  let fixed := (names.takeWhile Option.isSome).filterMap id
  let (fs, place) ← look fs ⟨g.fromRoot, fixed, false⟩
  match fs.root.get? place with
  | some (.dir _) =>
    let depth := if g.parts.contains .directories then deepest else g.parts.length
    return fs.put place (← listing place depth)
  | _ => return fs

-- Before a command is run, all that it may look at is read into a tree.
def snapshot (fs : Files) : Command → IO Files
  | .parse _ | .arity _ | .check _ none => return fs
  | .check _ (some path) => load fs path
  | .eval e => do
    let mut fs := fs
    for source in e.selection.sources.filter (·.toList.any Text.isGlobMark) do
      match Glob.ofString source with
      | .ok g => fs ← survey fs g
      | .error _ => pure ()
    for path in e.patternFile :: ((e.selection.paths Files.host fs).toOption.getD []) do
      fs ← load fs path
    match e.output?.bind FilePath.ofString? with
    | some p => return (← look fs p).1
    | none => return fs

def written? (fs : Files) : Command → Option (String × String)
  | .eval e => do
    let path ← e.output?
    return (path, ← (fs.readText path).toOption)
  | _ => none

def save (path content : String) : IO Unit := do
  let cwd ← IO.currentDir
  match Path.parent? path with
  | some dir => IO.FS.createDirAll (cwd / dir)
  | none => pure ()
  IO.FS.writeFile (cwd / path) content

end Switchboard.Disk

open Switchboard

def main (args : List String) : IO UInt32 := do
  match Command.ofArguments args with
  | .error .help =>
    IO.println "usage: parse PATTERN.. | arity PATTERN.. | check PATTERN.. | eval -p FILE -i FILE.."
    return 0
  | .error f =>
    IO.eprintln s!"error: {f.message}"
    return 2
  | .ok c =>
    let cwd := (← IO.currentDir).components.filter (!·.isEmpty)
    let fs ← Disk.snapshot ⟨FileTree.put (.dir []) cwd (.dir []), cwd⟩ c
    let (r, fs) := c.run Files.host (← (← IO.getStdout).isTty) fs
    IO.print r.printed
    match r.fault?, Disk.written? fs c with
    | none, some (path, content) => Disk.save path content
    | _, _ => pure ()
    match r.fault? with
    | some f =>
      IO.eprintln s!"Error: {f.message}"
      return 1
    | none => return 0
