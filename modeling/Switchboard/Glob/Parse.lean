import Switchboard.Glob.Basic

namespace Switchboard.Glob

inductive Flaw
  | openClass
  | tooManyStars
  | starsInName
deriving DecidableEq

structure Malformed where
  position : Nat
  flaw     : Flaw
deriving DecidableEq

def Flaw.message : Flaw → String
  | openClass => "invalid range pattern"
  | tooManyStars => "wildcards are either regular `*` or recursive `**`"
  | starsInName => "recursive wildcards must form a single path component"

def Malformed.message (m : Malformed) : String :=
  s!"Pattern syntax error near position {m.position}: {m.flaw.message}"

def spans : List Char → List Span
  | a :: '-' :: b :: cs => ⟨a, b⟩ :: spans cs
  | a :: cs => ⟨a, a⟩ :: spans cs
  | [] => []

-- Splits the inside of a class from what follows it. The first character never closes a class.
def classEnd? : List Char → Option (List Char × List Char)
  | [] => none
  | c :: cs =>
    if cs.contains ']' then
      some (c :: cs.takeWhile (· ≠ ']'), (cs.dropWhile (· ≠ ']')).drop 1)
    else none

def class? : List Char → Option (Token × List Char)
  | '!' :: cs => (classEnd? cs).map fun e => (.except (spans e.1), e.2)
  | cs => (classEnd? cs).map fun e => (.within (spans e.1), e.2)

theorem length_lt_of_classEnd? {cs : List Char} {e : List Char × List Char}
    (h : classEnd? cs = some e) : e.2.length < cs.length := by
  cases cs with
  | nil => simp [classEnd?] at h
  | cons c cs =>
    simp only [classEnd?] at h
    split at h
    · cases h
      have := (List.dropWhile_suffix (l := cs) (· ≠ ']')).length_le
      simp only [List.length_drop, List.length_cons]
      omega
    · simp at h

theorem length_lt_of_class? {cs : List Char} {e : Token × List Char} (h : class? cs = some e) :
    e.2.length < cs.length := by
  unfold class? at h
  split at h
  · obtain ⟨_, he, rfl⟩ := Option.map_eq_some_iff.1 h
    exact Nat.lt_succ_of_lt (length_lt_of_classEnd? he)
  · obtain ⟨_, he, rfl⟩ := Option.map_eq_some_iff.1 h
    exact length_lt_of_classEnd? he

-- Two stars must have a slash or nothing on either side, and more are never right.
def starsFlaw? (position count : Nat) (afterSlash : Bool) (rest : List Char) : Option Malformed :=
  if count > 2 then some ⟨position + 2, .tooManyStars⟩
  else if count = 2 && !afterSlash then some ⟨position - 1, .starsInName⟩
  else if count = 2 && !rest.isEmpty && rest.head? ≠ some '/' then some ⟨position + 2, .starsInName⟩
  else none

def tokens (position : Nat) (afterSlash : Bool) (cs : List Char) : Except Malformed (List Token) :=
  match cs with
  | [] => .ok []
  | c :: cs =>
    if c = '*' then
      let count := 1 + (cs.takeWhile (· = '*')).length
      let rest := cs.dropWhile (· = '*')
      match starsFlaw? position count afterSlash rest with
      | some m => .error m
      | none => (tokens (position + count) false rest).map (.anyRun :: ·)
    else if c = '[' then
      match _h : class? cs with
      | none => .error ⟨position, .openClass⟩
      | some (t, rest) =>
        (tokens (position + 1 + (cs.length - rest.length)) false rest).map (t :: ·)
    else
      let t := if c = '?' then .anyChar else .char c
      (tokens (position + 1) (c = '/') cs).map (t :: ·)
termination_by cs.length
decreasing_by
  · have := (List.dropWhile_suffix (l := cs) (· = '*')).length_le
    simp only [List.length_cons]
    omega
  · have : rest.length < cs.length := length_lt_of_class? _h
    simp only [List.length_cons]
    omega
  · simp

def part (cs : List Char) : Except Malformed Part :=
  if cs = ['*', '*'] then .ok .directories else (tokens 0 true cs).map .name

-- The texts between slashes, of which nothing is left before a slash at the start or after one at
-- the end.
def partTexts (cs : List Char) : List (List Char) :=
  let cs := cs.dropWhile (· = '/')
  if cs.getLast? = some '/' then cs.dropLast.splitOn '/' else cs.splitOn '/'

-- A glob is well formed as a whole, and so is each of its parts on its own.
def ofString (s : String) : Except Malformed Glob := do
  let cs := s.toList
  let _ ← tokens 0 true cs
  return {
    fromRoot := cs.head? = some '/'
    parts := ← (partTexts cs).mapM part
    endsInSlash := cs.getLast? = some '/'
  }

end Switchboard.Glob
