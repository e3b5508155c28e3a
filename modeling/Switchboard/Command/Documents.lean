import Switchboard.Command.Basic
import Switchboard.Command.Fault
import Switchboard.Text.Blank

namespace Switchboard

namespace Text

def isGlobMark (c : Char) : Bool :=
  c = '*' || c = '?' || c = '[' || c = '{'

-- The lines of a text. A line feed ends a line, with a carriage return before it if there is one,
-- and there is no line after the last line feed.
def lines (cs : List Char) : List (List Char) :=
  let parts := cs.splitOn '\n'
  let ended := parts.dropLast.map fun l => if l.getLast? = some '\r' then l.dropLast else l
  match parts.getLast? with
  | none | some [] => ended
  | some l => ended ++ [l]

end Text

namespace Selection

open Command

def documents (s : Selection) (content : String) : List String :=
  if s.perLine then
    ((Text.lines content.toList).filter (!Text.isAllBlank ·)).map String.ofList
  else [content]

variable {σ μ π : Type} (h : Host σ μ π)

def pathsOf (fs : σ) (source : String) : Except Fault (List String) :=
  if source.toList.any Text.isGlobMark then
    match h.glob fs source with
    | .error cause => .error (.globMalformed cause)
    | .ok entries => do
      match ← entries.mapM (·.mapError .globEntryUnread) with
      | [] => .error (.globMatchedNothing source)
      | paths => return paths
  else .ok [source]

def paths (fs : σ) (s : Selection) : Except Fault (List String) := do
  return (← s.sources.mapM (pathsOf h fs)).flatten

def compiled (s : Selection) : Except Fault (Option (Query π)) :=
  match s.query? with
  | none => .ok none
  | some source => ((Query.compile h source).map some).mapError .queryRefused

def nodes (s : Selection) (query? : Option (Query π)) (path : String) (x : Json) :
    Except Fault (List Json) :=
  match s.pointer?.elim (some x) (h.pointer? x), query? with
  | none, _ => .ok []
  | some x, none => .ok [x]
  | some x, some q => (q.run h x).mapError (.queryFailed path)

end Selection

end Switchboard
