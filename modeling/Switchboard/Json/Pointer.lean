import Switchboard.Json.Basic
import Switchboard.Decimal.Numeral

namespace Switchboard.Json

def unescapePointer : List Char → List Char
  | '~' :: '1' :: cs => '/' :: unescapePointer cs
  | '~' :: '0' :: cs => '~' :: unescapePointer cs
  | c :: cs => c :: unescapePointer cs
  | [] => []

def pointerIndex? : List Char → Option Nat
  | '+' :: _ => none
  | '0' :: _ :: _ => none
  | cs => Decimal.size? cs

def child? (token : List Char) : Json → Option Json
  | .object ms => Entries.get? (String.ofList token) ms
  | .array xs => (pointerIndex? token).bind (xs[·]?)
  | _ => none

def pointer? (x : Json) (pointer : String) : Option Json :=
  match pointer.toList with
  | [] => some x
  | '/' :: cs => (cs.splitOn '/').foldlM (fun x token => x.child? (unescapePointer token)) x
  | _ => none

end Switchboard.Json
