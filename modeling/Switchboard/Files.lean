import Switchboard.Keyed

namespace Switchboard

inductive FileTree
  | file (content : ByteArray)
  | dir (entries : List (String × FileTree))
deriving Inhabited

namespace FileTree

def isDir : FileTree → Bool
  | dir _ => true
  | file _ => false

abbrev Place := List String

def get? : FileTree → Place → Option FileTree
  | t, [] => some t
  | dir es, n :: ns => (Entries.get? n es).bind (get? · ns)
  | file _, _ :: _ => none

-- Directories that are missing on the way are made, and files in the way give way to them.
def put : FileTree → Place → FileTree → FileTree
  | _, [], node => node
  | dir es, n :: ns, node =>
    dir (Entries.put n (put ((Entries.get? n es).getD (dir [])) ns node) es)
  | file _, n :: ns, node => dir [(n, put (dir []) ns node)]
termination_by structural _ place _ => place

theorem sizeOf_lt_of_mem {es : List (String × FileTree)} {e : String × FileTree} (h : e ∈ es) :
    sizeOf e.2 < sizeOf (dir es) := by
  have h₁ := List.sizeOf_lt_of_mem h
  have h₂ : sizeOf e = 1 + sizeOf e.1 + sizeOf e.2 := by cases e; rfl
  simp only [dir.sizeOf_spec]
  omega

end FileTree

inductive FileFault
  | notFound
  | isDirectory
  | notDirectory
  | fileExists
  | invalidText
deriving DecidableEq

namespace FileFault

def message : FileFault → String
  | notFound => "No such file or directory (os error 2)"
  | isDirectory => "Is a directory (os error 21)"
  | notDirectory => "Not a directory (os error 20)"
  | fileExists => "File exists (os error 17)"
  | invalidText => "stream did not contain valid UTF-8"

end FileFault

structure FilePath where
  fromRoot    : Bool
  names       : List String
  endsInSlash : Bool

namespace FilePath

def ofString? (s : String) : Option FilePath :=
  let cs := s.toList
  if cs.isEmpty then none
  else
    some {
      fromRoot := cs.head? = some '/'
      names := ((cs.splitOn '/').filter (!·.isEmpty)).map String.ofList
      endsInSlash := cs.getLast? = some '/'
    }

end FilePath

structure Files where
  root : FileTree
  cwd  : FileTree.Place

namespace Files

def start (fs : Files) (p : FilePath) : FileTree.Place :=
  if p.fromRoot then [] else fs.cwd

-- One name further. `.` and no name at all stay and `..` goes up; above the root there is the root.
def step (fs : Files) (place : FileTree.Place) (name : String) : Except FileFault FileTree.Place :=
  match fs.root.get? place with
  | none => .error .notFound
  | some (.file _) => .error .notDirectory
  | some (.dir es) =>
    if name.isEmpty || name = "." then .ok place
    else if name = ".." then .ok place.dropLast
    else if (Entries.get? name es).isSome then .ok (place ++ [name])
    else .error .notFound

def find (fs : Files) (p : FilePath) : Except FileFault FileTree := do
  match fs.root.get? (← p.names.foldlM fs.step (fs.start p)) with
  | some (.file c) => if p.endsInSlash then .error .notDirectory else .ok (.file c)
  | some t => .ok t
  | none => .error .notFound

def findAt (fs : Files) (path : String) : Except FileFault FileTree :=
  match FilePath.ofString? path with
  | some p => fs.find p
  | none => .error .notFound

def read (fs : Files) (path : String) : Except FileFault ByteArray := do
  match ← fs.findAt path with
  | .file c => .ok c
  | .dir _ => .error .isDirectory

def readText (fs : Files) (path : String) : Except FileFault String := do
  match String.fromUTF8? (← fs.read path) with
  | some s => .ok s
  | none => .error .invalidText

def put (fs : Files) (place : FileTree.Place) (t : FileTree) : Files :=
  { fs with root := fs.root.put place t }

-- Makes the directories on a way that are missing. Those that are made stay if there is no way on.
def makeWay (fs : Files) (place : FileTree.Place) : List String → Except FileFault Unit × Files
  | [] =>
    match fs.root.get? place with
    | some (.file _) => (.error .fileExists, fs)
    | _ => (.ok (), fs)
  | n :: ns =>
    match fs.step place n with
    | .ok next => fs.makeWay next ns
    | .error .notFound => (fs.put (place ++ [n]) (.dir [])).makeWay (place ++ [n]) ns
    | .error f => (.error f, fs)
termination_by structural names => names

def createDirAll (fs : Files) (path : String) : Except FileFault Unit × Files :=
  match FilePath.ofString? path with
  | none => (.ok (), fs)
  | some p => fs.makeWay (fs.start p) (p.names.filter (· ≠ "."))

def written (fs : Files) (p : FilePath) (content : ByteArray) : Except FileFault Files := do
  let place ← p.names.dropLast.foldlM fs.step (fs.start p)
  match p.names.getLast?, fs.root.get? place with
  | _, none => .error .notFound
  | _, some (.file _) => .error .notDirectory
  | none, _ => .error .isDirectory
  | some name, some (.dir es) =>
    if name = "." || name = ".." || p.endsInSlash then .error .isDirectory
    else
      match Entries.get? name es with
      | some (.dir _) => .error .isDirectory
      | _ => .ok (fs.put (place ++ [name]) (.file content))

def write (fs : Files) (path content : String) : Except FileFault Unit × Files :=
  match FilePath.ofString? path with
  | none => (.error .notFound, fs)
  | some p =>
    match fs.written p content.toUTF8 with
    | .error f => (.error f, fs)
    | .ok fs => (.ok (), fs)

end Files

end Switchboard
