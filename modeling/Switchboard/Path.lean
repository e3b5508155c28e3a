namespace Switchboard.Path

-- No name stands between two slashes in a row, and a point is none unless a path starts with it.
def settled (atStart : Bool) : List (List Char) → List (List Char)
  | [] => []
  | n :: ns =>
    match settled false ns with
    | [] => if n = [] || (n = ['.'] && !atStart) then [] else [n]
    | ms => n :: ms

def parent? (path : String) : Option String :=
  let fromRoot := path.toList.head? = some '/'
  let (root, below) := if fromRoot then (['/'], path.toList.tail) else ([], path.toList)
  match settled (!fromRoot) (below.splitOn '/') with
  | [] => none
  | n :: ns =>
    some (String.ofList (root ++ ['/'].intercalate (settled (!fromRoot) (n :: ns).dropLast)))

end Switchboard.Path
