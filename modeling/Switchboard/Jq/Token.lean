import Switchboard.Decimal.Numeral
import Switchboard.Json.Reader
import Switchboard.Text.Blank
import Switchboard.Text.Name

namespace Switchboard.Jq

inductive Comparison
  | equal
  | unequal
  | less
  | atMost
  | greater
  | atLeast
deriving DecidableEq

inductive Token
  | dot
  | field (name : String)
  | word (name : String)
  | external (name : String)
  | numeral (digits : List Char)
  | text (s : String)
  | mark (c : Char)
  | pipe
  | minus
  | comparison (c : Comparison)

namespace Token

def marks : List Char :=
  [',', '?', ':', ';', '[', ']', '(', ')', '{', '}']

def isOperatorPart (c : Char) : Bool :=
  "|=!<>+-*/%".toList.contains c

def operators : List (String × Token) :=
  [("|", pipe), ("-", minus), ("==", comparison .equal), ("!=", comparison .unequal),
    ("<", comparison .less), ("<=", comparison .atMost), (">", comparison .greater),
    (">=", comparison .atLeast)]

def operator? (cs : List Char) : Option (Token × List Char) :=
  (operators.lookup (String.ofList (cs.takeWhile isOperatorPart))).map
    (·, cs.dropWhile isOperatorPart)

def name? : List Char → Option (String × List Char)
  | [] => none
  | c :: cs =>
    if Text.isNameStart c then
      some (String.ofList (c :: cs.takeWhile Text.isNamePart), cs.dropWhile Text.isNamePart)
    else none

def power? (cs : List Char) : Option (List Char × List Char) :=
  let (sign, cs) :=
    match cs with
    | '+' :: cs => (['+'], cs)
    | '-' :: cs => (['-'], cs)
    | cs => ([], cs)
  match Decimal.spanDigits cs with
  | ([], _) => none
  | (ds, cs) => some (sign ++ ds, cs)

def numeral? (cs : List Char) : Option (List Char × List Char) :=
  let (ds, cs) := Decimal.spanDigits cs
  let (places, cs) :=
    match cs with
    | '.' :: cs => let (ps, cs) := Decimal.spanDigits cs; ('.' :: ps, cs)
    | cs => ([], cs)
  match cs with
  | [] => some (ds ++ places, [])
  | c :: cs' =>
    if c = 'e' || c = 'E' then (power? cs').map fun (es, cs) => (ds ++ places ++ c :: es, cs)
    else some (ds ++ places, cs)

-- What stands after a backslash. Four hexadecimal digits name one character; halves of surrogate
-- pairs are none.
def escape? : List Char → Option (Char × List Char)
  | 'u' :: cs =>
    match Json.Reader.hexFour cs with
    | .ok (n, cs) => if n.isValidChar then some (.ofNat n, cs) else none
    | .error _ => none
  | cs => (Json.Reader.escape cs).toOption

def textFrom? : Nat → List Char → List Char → Option (String × List Char)
  | 0, _, _ => none
  | _, _, [] => none
  | _, read, '"' :: cs => some (String.ofList read.reverse, cs)
  | n + 1, read, '\\' :: cs => do
    let (c, cs) ← escape? cs
    textFrom? n (c :: read) cs
  | n + 1, read, c :: cs => textFrom? n (c :: read) cs

-- Every turn takes a character, so the count never runs out first.
def text? (cs : List Char) : Option (String × List Char) :=
  textFrom? (cs.length + 1) [] cs

def next? : List Char → Option (Token × List Char)
  | [] => none
  | '"' :: cs => (text? cs).map fun (s, cs) => (text s, cs)
  | '.' :: '.' :: _ => none
  | '.' :: cs =>
    match name? cs with
    | some (s, cs) => some (field s, cs)
    | none => some (dot, cs)
  | '$' :: cs => (name? cs).map fun (s, cs) => (external ("$" ++ s), cs)
  | c :: cs =>
    if marks.contains c then some (mark c, cs)
    else if isOperatorPart c then operator? (c :: cs)
    else if c.isDigit then (numeral? (c :: cs)).map fun (ds, cs) => (numeral ds, cs)
    else (name? (c :: cs)).map fun (s, cs) => (word s, cs)

-- All tokens. Each takes a character at least, so the count never runs out first.
def scan : Nat → List Char → Option (List Token)
  | 0, _ => none
  | n + 1, cs =>
    match Text.trimStart cs with
    | [] => some []
    | cs => do
      let (t, cs) ← next? cs
      let ts ← scan n cs
      return t :: ts

def ofString? (s : String) : Option (List Token) :=
  scan (s.length + 1) s.toList

end Token

end Switchboard.Jq
