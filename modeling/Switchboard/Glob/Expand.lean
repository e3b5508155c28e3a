import Switchboard.Files
import Switchboard.Glob.Parse

namespace Switchboard.Glob

structure Spot where
  path  : String
  place : FileTree.Place
  node  : FileTree

namespace Spot

def join (path name : String) : String :=
  if path.endsWith "/" then path ++ name else path ++ "/" ++ name

-- The path of something in the directory at `path`. The working directory is not written.
def below (path name : String) : String :=
  if path = "." then name else join path name

def follow? (fs : Files) (s : Spot) (path name : String) : Option Spot :=
  if path.isEmpty then none
  else
    match fs.step s.place name with
    | .ok place => (fs.root.get? place).map (⟨path, place, ·⟩)
    | .error _ => none

def child (s : Spot) (e : String × FileTree) : Spot :=
  ⟨below s.path e.1, s.place ++ [e.1], e.2⟩

end Spot

def sorted (es : List (String × FileTree)) : List (String × FileTree) :=
  es.mergeSort fun e f => !decide (f.1 < e.1)

-- Only what starts with a point describes the directory itself or the one above it.
def dotNames (ts : List Token) : List String :=
  if ts.head? = some (.char '.') then ["..", "."].filter (describes ts ·.toList) else []

mutual

def spots (fs : Files) (parts : List Part) (s : Spot) : List Spot :=
  match parts with
  | [] => [s]
  | p :: ps =>
    match p.literal? with
    | some name => (s.follow? fs (Spot.below s.path name) name).toList.flatMap (spots fs ps)
    | none =>
      match _hs : s.node with
      | .file _ => []
      | .dir es =>
        let dots :=
          match p with
          | .directories => []
          | .name ts => dotNames ts
        (dots.filterMap fun n => s.follow? fs (Spot.join s.path n) n).flatMap (spots fs ps) ++
          (sorted es).attach.flatMap fun e => visit fs p ps e.val.1 (s.child e.val)
termination_by (parts.length, sizeOf s.node, 0)
decreasing_by
  · exact Prod.Lex.left _ _ (by simp)
  · exact Prod.Lex.left _ _ (by simp)
  · have h := FileTree.sizeOf_lt_of_mem (List.mem_mergeSort.1 e.property)
    simp only [Spot.child, _hs]
    exact Prod.Lex.right _ (Prod.Lex.left _ _ h)

-- What is found at an entry of a directory and below it. The first part has to describe the entry's
-- name, but where that part takes in directories the next one does.
def visit (fs : Files) (p : Part) (ps : List Part) (name : String) (s : Spot) : List Spot :=
  match p with
  | .name ts => if describes ts name.toList then spots fs ps s else []
  | .directories =>
    match ps with
    | [] => if s.node.isDir then s :: spots fs [.directories] s else []
    | .directories :: ps => visit fs .directories ps name s
    | .name ts :: qs =>
      (if describes ts name.toList then spots fs qs s else []) ++
        spots fs (.directories :: .name ts :: qs) s
termination_by (ps.length + 1, sizeOf s.node, 1)

end

def expand (fs : Files) (g : Glob) : List String :=
  let (path, place) := if g.fromRoot then ("/", []) else (".", fs.cwd)
  match fs.root.get? place with
  | none => []
  | some node =>
    ((spots fs g.parts ⟨path, place, node⟩).filter (!g.endsInSlash || ·.node.isDir)).map (·.path)

end Switchboard.Glob
