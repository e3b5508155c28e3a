import Switchboard.Json.Printer
import Switchboard.Text.Escaped

namespace Switchboard.Json

inductive Found
  | null
  | bool (b : Bool)
  | whole (i : Whole)
  | real (x : Real)
  | text (s : String)
  | sequence
  | map

inductive Wanted
  | map
  | sequence
  | byte

inductive Flaw
  | endInValue
  | endInList
  | endInObject
  | endInText
  | expectedValue
  | expectedIdent
  | expectedColon
  | expectedCommaOrBracket
  | expectedCommaOrBrace
  | trailingComma
  | keyNotText
  | invalidNumber
  | numberOutOfRange
  | invalidEscape
  | loneSurrogate
  | endOfHexEscape
  | controlCharacter
  | tooDeep
  | trailingCharacters
  | wrongType (found : Found) (wanted : Wanted)
  | wrongValue (found : Whole) (wanted : Wanted)

-- One step down a JSON value. While the next key of an object is being read it is not known yet.
inductive Step
  | key (k : String)
  | index (i : Nat)
  | unknownKey

-- The way from the root to a part of a value, innermost step first.
abbrev Path := List Step

structure Fault where
  path : Path
  flaw : Flaw

namespace Found

def message : Found → String
  | null => "null"
  | bool b => s!"boolean `{b}`"
  | whole i => s!"integer `{i.val}`"
  | real x => "floating point `" ++ String.ofList (numberLayout.write x.val) ++ "`"
  | text s => s!"string {Text.escaped s}"
  | sequence => "sequence"
  | map => "map"

end Found

namespace Wanted

def message : Wanted → String
  | map => "a map"
  | sequence => "a sequence"
  | byte => "u8"

end Wanted

namespace Flaw

def message : Flaw → String
  | endInValue => "EOF while parsing a value"
  | endInList => "EOF while parsing a list"
  | endInObject => "EOF while parsing an object"
  | endInText => "EOF while parsing a string"
  | expectedValue => "expected value"
  | expectedIdent => "expected ident"
  | expectedColon => "expected `:`"
  | expectedCommaOrBracket => "expected `,` or `]`"
  | expectedCommaOrBrace => "expected `,` or `\x7d`"
  | trailingComma => "trailing comma"
  | keyNotText => "key must be a string"
  | invalidNumber => "invalid number"
  | numberOutOfRange => "number out of range"
  | invalidEscape => "invalid escape"
  | loneSurrogate => "lone leading surrogate in hex escape"
  | endOfHexEscape => "unexpected end of hex escape"
  | controlCharacter => "control character (\\u0000-\\u001F) found while parsing a string"
  | tooDeep => "recursion limit exceeded"
  | trailingCharacters => "trailing characters"
  | wrongType found wanted => s!"invalid type: {found.message}, expected {wanted.message}"
  | wrongValue found wanted =>
    s!"invalid value: {(Found.whole found).message}, expected {wanted.message}"

end Flaw

namespace Path

def stepText (first : Bool) : Step → String
  | .index i => s!"[{i}]"
  | .key k => (if first then "" else ".") ++ k
  | .unknownKey => if first then "?" else ".?"

def text (p : Path) : String :=
  match p.reverse with
  | [] => "."
  | s :: ss => String.join (stepText true s :: ss.map (stepText false))

end Path

namespace Fault

def message (f : Fault) : String :=
  s!"at JSON path {f.path.text} → {f.flaw.message}"

end Fault

end Switchboard.Json
