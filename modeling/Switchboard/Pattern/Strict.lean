import Switchboard.Pattern.Parse
import Switchboard.Text.Name

namespace Switchboard

inductive Malformed
  | empty
  | unterminatedQuote (part : String)
  | unbalancedBrackets (part : String)
  | emptyElement (part : String)
  | invalidName (part : String)
deriving DecidableEq

namespace Malformed

def message : Malformed → String
  | empty => "empty pattern"
  | unterminatedQuote s => s!"unterminated quote in `{s}`"
  | unbalancedBrackets s => s!"unbalanced brackets in `{s}`"
  | emptyElement s => s!"empty element in `{s}`"
  | invalidName s => s!"`{s}` is not a valid identifier"

end Malformed

namespace Text

def isBalanced (quoted : Bool) (pending : List Bracket) : List Char → Bool
  | [] => !quoted && pending.isEmpty
  | c :: cs =>
    if c = '"' then isBalanced (!quoted) pending cs
    else if quoted then isBalanced quoted pending cs
    else if c = '[' then isBalanced quoted (.square :: pending) cs
    else if c = '(' then isBalanced quoted (.round :: pending) cs
    else if c = ']' then
      match pending with
      | .square :: pending => isBalanced quoted pending cs
      | _ => false
    else if c = ')' then
      match pending with
      | .round :: pending => isBalanced quoted pending cs
      | _ => false
    else isBalanced quoted pending cs

def isBracket (c : Char) : Bool :=
  c = '[' || c = ']' || c = '(' || c = ')'

end Text

namespace Bracket

def ofOpening? (c : Char) : Option Bracket :=
  if c = '[' then some square else if c = '(' then some round else none

variable (δ : Type) [OfNat δ 0] [OfNat δ 1] [Add δ] [Sub δ] [DecidableEq δ]

-- The elements of a balanced text from bracket to bracket; `none` if it is not balanced.
def enclosedIn? (b : Bracket) (cs : List Char) : Option (List (List Char)) :=
  if Text.isBalanced false [] cs && cs.getLast? = some b.closing then
    some (b.elementsIn δ (Text.trim (cs.drop 1).dropLast))
  else none

abbrev enclosed? (b : Bracket) (cs : List Char) : Option (List (List Char)) :=
  b.enclosedIn? Int cs

variable {δ}

theorem length_lt_of_mem_enclosedIn? {b : Bracket} {cs e : List Char} {es : List (List Char)}
    (hc : cs ≠ []) (h : b.enclosedIn? δ cs = some es) (he : e ∈ es) :
    (Text.trim e).length < cs.length := by
  unfold enclosedIn? at h
  split at h
  · cases h
    have h₁ := Text.length_trim_le e
    have h₂ := length_le_of_mem_elementsIn he
    have h₃ := Text.length_trim_le (cs.drop 1).dropLast
    have h₄ : (cs.drop 1).dropLast.length < cs.length := by
      simp only [List.length_dropLast, List.length_drop]
      have := List.length_pos_iff.2 hc
      omega
    omega
  · cases h

end Bracket

namespace Pattern

def bareFlaw? (cs : List Char) : Option Malformed :=
  if Text.isName cs then none
  else if cs.any Text.isBracket then some (.unbalancedBrackets (String.ofList cs))
  else if cs.contains '"' then some (.unterminatedQuote (String.ofList cs))
  else some (.invalidName (String.ofList cs))

-- A quoted text ends with the only other quote in it.
def quotedFlaw? (cs : List Char) : Option Malformed :=
  match between? '"' '"' cs with
  | some inner => if inner.contains '"' then some (.unterminatedQuote (String.ofList cs)) else none
  | none => some (.unterminatedQuote (String.ofList cs))

section

variable (δ : Type) [OfNat δ 0] [OfNat δ 1] [Add δ] [Sub δ] [DecidableEq δ]

def flawIn? (cs : List Char) : Option Malformed :=
  match _h : cs with
  | [] => some .empty
  | c :: _ =>
    if cs = ['_'] then none
    else if c = '"' then quotedFlaw? cs
    else
      match Bracket.ofOpening? c with
      | none => bareFlaw? cs
      | some b =>
        match _he : b.enclosedIn? δ cs with
        | none => some (.unbalancedBrackets (String.ofList cs))
        | some es =>
          es.attach.findSome? fun e =>
            if (Text.trim e.val).isEmpty then some (.emptyElement (String.ofList cs))
            else flawIn? (Text.trim e.val)
termination_by cs.length
decreasing_by
  subst _h
  exact Bracket.length_lt_of_mem_enclosedIn? (by simp) _he e.property

def ofStringStrictIn (s : String) : Except Malformed Pattern :=
  match flawIn? δ (Text.trim s.toList) with
  | some f => .error f
  | none => .ok (ofStringIn δ s)

end

def flaw? (cs : List Char) : Option Malformed :=
  flawIn? Int cs

def ofStringStrict (s : String) : Except Malformed Pattern :=
  match flaw? (Text.trim s.toList) with
  | some f => .error f
  | none => .ok (ofString s)

end Pattern

end Switchboard
