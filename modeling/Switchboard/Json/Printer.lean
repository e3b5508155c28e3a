import Switchboard.Json.Basic
import Switchboard.Decimal.Shortest

namespace Switchboard.Json

def hexPair (n : Nat) : List Char :=
  [Nat.digitChar (n / 16 % 16), Nat.digitChar (n % 16)]

def escapeChar (c : Char) : List Char :=
  if c = '"' then ['\\', '"']
  else if c = '\\' then ['\\', '\\']
  else if c = '\n' then ['\\', 'n']
  else if c = '\r' then ['\\', 'r']
  else if c = '\t' then ['\\', 't']
  else if c = '\x08' then ['\\', 'b']
  else if c = '\x0c' then ['\\', 'f']
  else if c.toNat < 0x20 then ['\\', 'u', '0', '0'] ++ hexPair c.toNat
  else [c]

def quote (cs : List Char) : List Char :=
  '"' :: cs.flatMap escapeChar ++ ['"']

-- Numbers have a point from 0.00001 up to 16 digits before it, and a signed power of ten beyond.
def numberLayout : Decimal.Layout :=
  { lowest := -5, highest := 15, plus := true, tie := .even }

mutual

def chars : Json → List Char
  | .null => "null".toList
  | .bool b => if b then "true".toList else "false".toList
  | .whole i => (toString i.val).toList
  | .real x => numberLayout.write x.val
  | .text s => quote s.toList
  | .array xs => '[' :: List.intercalate [','] (itemChars xs) ++ [']']
  | .object ms => '{' :: List.intercalate [','] (memberChars ms) ++ ['}']

def itemChars : List Json → List (List Char)
  | [] => []
  | x :: xs => x.chars :: itemChars xs

def memberChars : List (String × Json) → List (List Char)
  | [] => []
  | (k, x) :: ms => (quote k.toList ++ ':' :: x.chars) :: memberChars ms

end

def compact (x : Json) : String :=
  String.ofList x.chars

def indent (depth : Nat) : List Char :=
  '\n' :: List.replicate (2 * depth) ' '

def block (depth : Nat) (start stop : Char) (parts : List (List Char)) : List Char :=
  if parts.isEmpty then [start, stop]
  else
    start :: List.intercalate [','] (parts.map (indent (depth + 1) ++ ·)) ++
      indent depth ++ [stop]

mutual

def prettyChars (depth : Nat) : Json → List Char
  | .array xs => block depth '[' ']' (prettyItems (depth + 1) xs)
  | .object ms => block depth '{' '}' (prettyMembers (depth + 1) ms)
  | x => x.chars

def prettyItems (depth : Nat) : List Json → List (List Char)
  | [] => []
  | x :: xs => x.prettyChars depth :: prettyItems depth xs

def prettyMembers (depth : Nat) : List (String × Json) → List (List Char)
  | [] => []
  | (k, x) :: ms => (quote k.toList ++ ':' :: ' ' :: x.prettyChars depth) :: prettyMembers depth ms

end

def pretty (x : Json) : String :=
  String.ofList (x.prettyChars 0)

end Switchboard.Json
