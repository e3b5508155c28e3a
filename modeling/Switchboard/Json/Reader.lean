import Switchboard.Json.Fault
import Switchboard.Json.Readers
import Switchboard.Decimal.Numeral

namespace Switchboard.Json

namespace Reader

open Decimal

def skipBlanks (cs : List Char) : List Char :=
  cs.dropWhile isBlank

-- The leading digits that fit into a 64-bit word, appended to `n`, and the digits that do not.
def fillWord (n : Nat) : List Char → Nat × List Char
  | [] => (n, [])
  | d :: ds =>
    if 10 * n + digitValue d < 0x10000000000000000 then fillWord (10 * n + digitValue d) ds
    else (n, d :: ds)

def powerOfTen (n : Nat) : Nat :=
  Binary64.nearestRank (Nat.pow 10 n) 1

-- A word scaled by a power of ten. The word, the power and their product or quotient are each
-- rounded to a double. Powers beyond 10^308 are no doubles: upwards they are out of range, and
-- downwards the quotient is taken in steps of 10^308, of which two leave nothing of a word.
def scale? (n : Nat) (e : Int) : Option Nat :=
  let r := Binary64.nearestRank n 1
  if 308 < e then if r = 0 then some 0 else none
  else if 0 ≤ e then
    let p := Binary64.productRank r (powerOfTen e.toNat)
    if p < Binary64.infinityRank then some p else none
  else if -308 ≤ e then some (Binary64.quotientRank r (powerOfTen (-e).toNat))
  else if -616 ≤ e then
    some (Binary64.quotientRank (Binary64.quotientRank r (powerOfTen 308))
      (powerOfTen (-e - 308).toNat))
  else some 0

def realOfRank? (negative : Bool) (rank : Nat) : Option Json :=
  if h : rank < Binary64.infinityRank then
    some (.real ⟨.number negative ⟨rank, Nat.lt_succ_of_lt h⟩, decide_eq_true h⟩)
  else none

def real (negative : Bool) (n : Nat) (e : Int) : Except Flaw Json :=
  match (scale? n e).bind (realOfRank? negative) with
  | some x => .ok x
  | none => .error .numberOutOfRange

def noDigit : List Char → Flaw
  | [] => .endInValue
  | _ => .invalidNumber

-- The power of ten after `n * 10 ^ e`. It has to fit into 31 bits; a larger one is out of range
-- upwards unless `n` is zero, and leaves nothing downwards.
def exponentPart (negative : Bool) (n : Nat) (e : Int) (cs : List Char) :
    Except Flaw (Json × List Char) :=
  let (down, cs) := spanSign cs
  match spanDigits cs with
  | ([], cs) => .error (noDigit cs)
  | (ds, cs) =>
    let power : Int := readDigits 0 ds
    if power < 0x80000000 then (real negative n (if down then e - power else e + power)).map (·, cs)
    else if n = 0 || down then (real negative 0 0).map (·, cs)
    else .error .numberOutOfRange

def fractionPart (negative : Bool) (n : Nat) (e : Int) (cs : List Char) :
    Except Flaw (Json × List Char) :=
  match spanDigits cs with
  | ([], cs) => .error (noDigit cs)
  | (ds, cs) =>
    let (n, unread) := fillWord n ds
    let e := e - (ds.length - unread.length : Nat)
    match cs with
    | c :: cs' =>
      if c = 'e' || c = 'E' then exponentPart negative n e cs' else (real negative n e).map (·, cs)
    | [] => (real negative n e).map (·, cs)

-- An integer that is kept exactly, or else the double nearest to it. There is no negative zero
-- among the integers.
def integer (negative : Bool) (n : Nat) : Except Flaw Json :=
  let i : Int := if negative then -n else n
  if h : -0x8000000000000000 ≤ i ∧ i < 0x10000000000000000 ∧ (negative → n ≠ 0) then
    .ok (.whole ⟨i, h.1, h.2.1⟩)
  else real negative n 0

-- A number after its sign. Digits that do not fit into a word count as powers of ten.
def number (negative : Bool) (cs : List Char) : Except Flaw (Json × List Char) :=
  match spanDigits cs with
  | ([], cs) => .error (noDigit cs)
  | ('0' :: _ :: _, _) => .error .invalidNumber
  | (ds, cs) =>
    let (n, unread) := fillWord 0 ds
    let e : Int := unread.length
    let plain := if unread.isEmpty then integer negative n else real negative n e
    match cs with
    | [] => plain.map (·, cs)
    | c :: cs' =>
      if c = '.' then fractionPart negative n e cs'
      else if c = 'e' || c = 'E' then exponentPart negative n e cs'
      else plain.map (·, cs)

def hexValue? (c : Char) : Option Nat :=
  if c.isDigit then some (digitValue c)
  else if 'a' ≤ c ∧ c ≤ 'f' then some (c.toNat - 'a'.toNat + 10)
  else if 'A' ≤ c ∧ c ≤ 'F' then some (c.toNat - 'A'.toNat + 10)
  else none

-- The length in bytes of what is left decides whether four hexadecimal digits are missing or wrong.
def hexFour (cs : List Char) : Except Flaw (Nat × List Char) :=
  match cs with
  | a :: b :: c :: d :: rest =>
    match hexValue? a, hexValue? b, hexValue? c, hexValue? d with
    | some a, some b, some c, some d => .ok (((a * 16 + b) * 16 + c) * 16 + d, rest)
    | _, _, _, _ => .error .invalidEscape
  | _ => .error (if (String.ofList cs).utf8ByteSize < 4 then .endInText else .invalidEscape)

def secondSurrogate (n : Nat) : List Char → Except Flaw (Char × List Char)
  | [] => .error .endInText
  | '\\' :: [] => .error .endInText
  | '\\' :: 'u' :: cs => do
    let (m, cs) ← hexFour cs
    if 0xDC00 ≤ m ∧ m < 0xE000 then
      return (Char.ofNat ((n - 0xD800) * 0x400 + (m - 0xDC00) + 0x10000), cs)
    else .error .loneSurrogate
  | _ => .error .endOfHexEscape

def unicodeEscape (cs : List Char) : Except Flaw (Char × List Char) := do
  let (n, cs) ← hexFour cs
  if n < 0xD800 ∨ 0xE000 ≤ n then return (Char.ofNat n, cs)
  else if n < 0xDC00 then secondSurrogate n cs
  else .error .loneSurrogate

def escape : List Char → Except Flaw (Char × List Char)
  | [] => .error .endInText
  | '"' :: cs => .ok ('"', cs)
  | '\\' :: cs => .ok ('\\', cs)
  | '/' :: cs => .ok ('/', cs)
  | 'b' :: cs => .ok ('\x08', cs)
  | 'f' :: cs => .ok ('\x0c', cs)
  | 'n' :: cs => .ok ('\n', cs)
  | 'r' :: cs => .ok ('\r', cs)
  | 't' :: cs => .ok ('\t', cs)
  | 'u' :: cs => unicodeEscape cs
  | _ => .error .invalidEscape

-- A text after its first quote. `read` holds the characters before, last first.
def textFrom : Nat → List Char → List Char → Except Flaw (String × List Char)
  | 0, _, _ => .error .endInText
  | _, _, [] => .error .endInText
  | _, read, '"' :: cs => .ok (String.ofList read.reverse, cs)
  | n + 1, read, '\\' :: cs => do
    let (c, cs) ← escape cs
    textFrom n (c :: read) cs
  | n + 1, read, c :: cs =>
    if c.toNat < 0x20 then .error .controlCharacter else textFrom n (c :: read) cs

-- Every turn takes a character, so the count never runs out first.
def text (cs : List Char) : Except Flaw (String × List Char) :=
  textFrom (cs.length + 1) [] cs

-- A fixed word, of which the first letter is known to be there.
def word (letters : List Char) (x : Json) : List Char → Except Flaw (Json × List Char) :=
  go letters
where
  go : List Char → List Char → Except Flaw (Json × List Char)
    | [], cs => .ok (x, cs)
    | _ :: _, [] => .error .endInValue
    | l :: ls, c :: cs => if l = c then go ls cs else .error .expectedIdent

def scalar : List Char → Except Flaw (Json × List Char)
  | [] => .error .endInValue
  | 'n' :: cs => word "ull".toList .null cs
  | 't' :: cs => word "rue".toList (.bool true) cs
  | 'f' :: cs => word "alse".toList (.bool false) cs
  | '"' :: cs => (text cs).map fun (s, cs) => (.text s, cs)
  | '-' :: cs => number true cs
  | c :: cs => if c.isDigit then number false (c :: cs) else .error .expectedValue

inductive Next
  | close (rest : List Char)
  | part (rest : List Char)

def nextItem (first : Bool) : List Char → Except Flaw Next
  | [] => .error .endInList
  | ']' :: cs => .ok (.close cs)
  | c :: cs =>
    if first then .ok (.part (c :: cs))
    else if c = ',' then
      match skipBlanks cs with
      | [] => .error .endInValue
      | ']' :: _ => .error .trailingComma
      | cs => .ok (.part cs)
    else .error .expectedCommaOrBracket

-- A member starts after the first quote of its key.
def nextMember (first : Bool) : List Char → Except Flaw Next
  | [] => .error .endInObject
  | '}' :: cs => .ok (.close cs)
  | c :: cs =>
    if first then if c = '"' then .ok (.part cs) else .error .keyNotText
    else if c = ',' then
      match skipBlanks cs with
      | [] => .error .endInValue
      | '"' :: cs => .ok (.part cs)
      | '}' :: _ => .error .trailingComma
      | _ => .error .keyNotText
    else .error .expectedCommaOrBrace

def colon (cs : List Char) : Except Flaw (List Char) :=
  match skipBlanks cs with
  | [] => .error .endInObject
  | ':' :: cs => .ok cs
  | _ => .error .expectedColon

def located {α : Type} (path : Path) (r : Except Flaw α) : Except Fault α :=
  r.mapError (Fault.mk path)

section

variable {α : Type} (part : Path → List Char → Except Fault (α × List Char))

def items (path : Path) : Nat → Nat → List Char → Except Fault (List α × List Char)
  | 0, _, _ => .error ⟨path, .endInList⟩
  | n + 1, i, cs => do
    match ← located path (nextItem (i == 0) (skipBlanks cs)) with
    | .close cs => return ([], cs)
    | .part cs =>
      let (x, cs) ← part (.index i :: path) cs
      let (xs, cs) ← items path n (i + 1) cs
      return (x :: xs, cs)

def members (path : Path) : Nat → Bool → List Char → Except Fault (List (String × α) × List Char)
  | 0, _, _ => .error ⟨path, .endInObject⟩
  | n + 1, first, cs => do
    match ← located (.unknownKey :: path) (nextMember first (skipBlanks cs)) with
    | .close cs => return ([], cs)
    | .part cs =>
      let (k, cs) ← located (.unknownKey :: path) (text cs)
      let cs ← located path (colon cs)
      let (x, cs) ← part (.key k :: path) cs
      let (es, cs) ← members path n false cs
      return ((k, x) :: es, cs)

end

-- Lists and objects may stand in each other 127 deep. `n` bounds the turns: each of them takes a
-- character or goes one bracket deeper.
def value : Nat → Nat → Path → List Char → Except Fault (Json × List Char)
  | 0, _, path, _ => .error ⟨path, .endInValue⟩
  | n + 1, depth, path, cs =>
    match skipBlanks cs, depth with
    | '[' :: _, 0 => .error ⟨path, .tooDeep⟩
    | '{' :: _, 0 => .error ⟨path, .tooDeep⟩
    | '[' :: cs, depth + 1 =>
      (items (value n depth) path n 0 cs).map fun (xs, cs) => (.array xs, cs)
    | '{' :: cs, depth + 1 =>
      (members (value n depth) path n true cs).map fun (es, cs) =>
        (.object (Keyed.ofList es).entries, cs)
    | cs, _ => located path (scalar cs)

def depthLimit : Nat := 127

def turns (cs : List Char) : Nat :=
  2 * cs.length + 2

-- What stands at the front, told by reading it as far as its kind asks.
def found : List Char → Except Flaw Found
  | '[' :: _ => .ok .sequence
  | '{' :: _ => .ok .map
  | cs => do
    match (← scalar cs).1 with
    | .null => .ok .null
    | .bool b => .ok (.bool b)
    | .whole i => .ok (.whole i)
    | .real x => .ok (.real x)
    | .text s => .ok (.text s)
    | .array _ => .ok .sequence
    | .object _ => .ok .map

def refuse {α : Type} (path : Path) (wanted : Wanted) (cs : List Char) :
    Except Fault (α × List Char) :=
  match found cs with
  | .ok f => .error ⟨path, .wrongType f wanted⟩
  | .error f => .error ⟨path, f⟩

def byte (path : Path) (cs : List Char) : Except Fault (UInt8 × List Char) :=
  match skipBlanks cs with
  | c :: cs =>
    if c = '-' || c.isDigit then do
      match ← located path (scalar (c :: cs)) with
      | (.whole i, cs) =>
        if 0 ≤ i.val && i.val < 256 then return (UInt8.ofNat i.val.toNat, cs)
        else .error ⟨path, .wrongValue i .byte⟩
      | (.real x, _) => .error ⟨path, .wrongType (.real x) .byte⟩
      | _ => .error ⟨path, .expectedValue⟩
    else refuse path .byte (c :: cs)
  | [] => .error ⟨path, .endInValue⟩

def bytes (path : Path) (cs : List Char) : Except Fault (List UInt8 × List Char) :=
  match skipBlanks cs with
  | '[' :: cs => items byte path (turns cs) 0 cs
  | cs => refuse path .sequence cs

def front {α : Type} (part : Path → List Char → Except Fault (α × List Char)) (n : Nat)
    (cs : List Char) : Except Fault (List (String × α) × List Char) :=
  match skipBlanks cs with
  | '{' :: cs => members part [] n true cs
  | cs => refuse [] .map cs

def keyed {α : Type} (r : Except Fault (List (String × α) × List Char)) :
    Except PathError (Keyed String α × String) :=
  match r with
  | .ok (es, cs) => .ok (.ofList es, String.ofList cs)
  | .error f => .error ⟨f.path.text, f.flaw.message⟩

-- The members of an object of any values are one bracket deep already.
def entries (s : String) : Except Fault (List (String × Json) × List Char) :=
  let n := turns s.toList - 1
  front (value n (depthLimit - 1)) n s.toList

def bytesMembers (s : String) : Except PathError (Keyed String (List UInt8) × String) :=
  keyed (front bytes (turns s.toList) s.toList)

end Reader

def ofString (s : String) : Except Fault Json := do
  let cs := s.toList
  let (x, cs) ← Reader.value (Reader.turns cs) Reader.depthLimit [] cs
  if (Reader.skipBlanks cs).isEmpty then return x else .error ⟨[], .trailingCharacters⟩

def readers : Readers where
  entries s := (Reader.entries s).toOption.map fun (es, cs) => (es, String.ofList cs)
  value s :=
    match Reader.value (Reader.turns s.toList) Reader.depthLimit [] s.toList with
    | .ok (x, cs) => .ok (x, String.ofList cs)
    | .error f => .error f.flaw.message
  members s := Reader.keyed (Reader.entries s)
  document s := (ofString s).mapError (·.flaw.message)

end Switchboard.Json
