import Switchboard.Pattern.Basic
import Switchboard.Pattern.Elements

namespace Switchboard

def between? (first last : Char) : List Char → Option (List Char)
  | [] => none
  | c :: cs => if c = first ∧ cs.getLast? = some last then some cs.dropLast else none

theorem length_of_between? {a b : Char} {cs inner : List Char} (h : between? a b cs = some inner) :
    inner.length < cs.length := by
  cases cs with
  | nil => simp [between?] at h
  | cons c cs =>
    simp only [between?] at h
    split at h
    · cases h
      simp only [List.length_dropLast, List.length_cons]
      omega
    · simp at h

inductive Outline
  | wildcard
  | quoted (source : List Char)
  | bracketed (b : Bracket) (elements : List (List Char))
  | bare (name : List Char)

variable (δ : Type) [OfNat δ 0] [OfNat δ 1] [Add δ] [Sub δ] [DecidableEq δ]

namespace Outline

-- The form of a text without blanks around it. Quotes come before brackets.
def ofTrimmedIn (cs : List Char) : Outline :=
  if cs = ['_'] then .wildcard
  else
    match between? '"' '"' cs with
    | some inner => .quoted inner
    | none =>
      match between? '[' ']' cs with
      | some inner => .bracketed .square (Bracket.square.elementsIn δ (Text.trim inner))
      | none =>
        match between? '(' ')' cs with
        | some inner => .bracketed .round (Bracket.round.elementsIn δ (Text.trim inner))
        | none => .bare cs

def ofCharsIn (cs : List Char) : Outline :=
  ofTrimmedIn δ (Text.trim cs)

abbrev ofTrimmed (cs : List Char) : Outline :=
  ofTrimmedIn Int cs

variable {δ}

theorem length_lt_of_mem {cs e : List Char} {b : Bracket} {es : List (List Char)}
    (h : ofCharsIn δ cs = .bracketed b es) (he : e ∈ es) : e.length < cs.length := by
  have key : ∀ {c d : Char} {b' : Bracket} {inner : List Char},
      between? c d (Text.trim cs) = some inner → e ∈ b'.elementsIn δ (Text.trim inner) →
        e.length < cs.length := by
    intro c d b' inner hb hm
    have h₁ := Bracket.length_le_of_mem_elementsIn hm
    have h₂ := Text.length_trim_le inner
    have h₃ := length_of_between? hb
    have h₄ := Text.length_trim_le cs
    omega
  unfold ofCharsIn ofTrimmedIn at h
  split at h
  · cases h
  · split at h
    · cases h
    · split at h
      · cases h
        exact key ‹_› he
      · split at h
        · cases h
          exact key ‹_› he
        · cases h

end Outline

namespace Pattern

def ofBracket : Bracket → List Pattern → Pattern
  | .square => .list
  | .round => .cells

def ofCharsIn (cs : List Char) : Pattern :=
  match _h : Outline.ofCharsIn δ cs with
  | .wildcard => .wildcard
  | .quoted source => .literal (.ofText (String.ofList source))
  | .bracketed b es => ofBracket b (es.attach.map fun e => ofCharsIn e.val)
  | .bare n => .name (String.ofList n)
termination_by cs.length
decreasing_by exact Outline.length_lt_of_mem _h e.property

def ofStringIn (s : String) : Pattern :=
  ofCharsIn δ s.toList

def ofChars (cs : List Char) : Pattern :=
  ofCharsIn Int cs

def ofString (s : String) : Pattern :=
  ofChars s.toList

end Pattern

end Switchboard
