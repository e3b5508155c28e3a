namespace Switchboard

namespace Glob

structure Span where
  first : Char
  last  : Char
deriving DecidableEq

inductive Token
  | char (c : Char)
  | anyChar
  | anyRun
  | within (spans : List Span)
  | except (spans : List Span)
deriving DecidableEq

namespace Span

def contains (s : Span) (c : Char) : Bool :=
  s.first ≤ c && c ≤ s.last

end Span

namespace Token

def char? : Token → Option Char
  | char c => some c
  | _ => none

def accepts (c : Char) : Token → Bool
  | char d => c = d
  | anyChar => true
  | anyRun => false
  | within spans => spans.any (·.contains c)
  | except spans => !spans.any (·.contains c)

end Token

def describes : List Token → List Char → Bool
  | [], cs => cs.isEmpty
  | .anyRun :: ts, [] => describes ts []
  | .anyRun :: ts, c :: cs => describes ts (c :: cs) || describes (.anyRun :: ts) cs
  | _ :: _, [] => false
  | t :: ts, c :: cs => t.accepts c && describes ts cs
termination_by ts cs => ts.length + cs.length

-- What stands between two slashes: `**` for any directories, or a name's tokens.
inductive Part
  | directories
  | name (tokens : List Token)
deriving DecidableEq

namespace Part

def literal? : Part → Option String
  | directories => none
  | name ts => (ts.mapM Token.char?).map String.ofList

end Part

end Glob

structure Glob where
  fromRoot    : Bool
  parts       : List Glob.Part
  endsInSlash : Bool
deriving DecidableEq

end Switchboard
