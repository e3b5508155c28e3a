import Switchboard.Text.Blank

namespace Switchboard

inductive Bracket
  | square
  | round
deriving DecidableEq

namespace Bracket

def opening : Bracket → Char
  | square => '['
  | round => '('

def closing : Bracket → Char
  | square => ']'
  | round => ')'

def separator : Bracket → List Char
  | square => [',', ' ']
  | round => [':']

theorem length_separator_pos (b : Bracket) : 0 < b.separator.length := by
  cases b <;> decide

end Bracket

-- Brackets need not be balanced, so the depth may fall below zero. What it is counted by is left
-- open: the scan of a text has 32 bits for it, and integers never wrap around.
structure Nesting (δ : Type) where
  quoted : Bool
  depth  : δ
deriving DecidableEq

variable {δ : Type} [OfNat δ 0] [OfNat δ 1] [Add δ] [Sub δ] [DecidableEq δ]

namespace Nesting

def outset (δ : Type) [OfNat δ 0] : Nesting δ :=
  ⟨false, 0⟩

abbrev start : Nesting Int :=
  outset Int

def step (n : Nesting δ) (c : Char) : Nesting δ :=
  if c = '"' then { n with quoted := !n.quoted }
  else if n.quoted then n
  else if c = '[' ∨ c = '(' then { n with depth := n.depth + 1 }
  else if c = ']' ∨ c = ')' then { n with depth := n.depth - 1 }
  else n

def isTop (n : Nesting δ) : Bool :=
  !n.quoted && n.depth == 0

end Nesting

namespace Bracket

def pieces (b : Bracket) (n : Nesting δ) : List Char → List (List Char)
  | [] => [[]]
  | c :: cs =>
    if n.isTop && b.separator.isPrefixOf (c :: cs) then
      [] :: pieces b n ((c :: cs).drop b.separator.length)
    else (pieces b (n.step c) cs).modifyHead (c :: ·)
termination_by cs => cs.length
decreasing_by
  · have := b.length_separator_pos
    simp only [List.length_drop, List.length_cons]
    omega
  · simp

-- Nothing between the brackets is no element at all.
def elementsIn (δ : Type) [OfNat δ 0] [OfNat δ 1] [Add δ] [Sub δ] [DecidableEq δ] (b : Bracket)
    (cs : List Char) : List (List Char) :=
  if cs.isEmpty then [] else b.pieces (.outset δ) cs

def elements (b : Bracket) (cs : List Char) : List (List Char) :=
  b.elementsIn Int cs

theorem length_le_of_mem_pieces {b : Bracket} {n : Nesting δ} {cs e : List Char}
    (h : e ∈ b.pieces n cs) : e.length ≤ cs.length := by
  fun_induction pieces b n cs generalizing e with
  | case1 => simp_all
  | case2 n c cs _ ih =>
    rcases List.mem_cons.1 h with rfl | h
    · simp
    · exact Nat.le_trans (ih h) (by simp)
  | case3 n c cs _ ih =>
    cases hp : b.pieces (n.step c) cs with
    | nil => simp [hp] at h
    | cons p ps =>
      simp only [hp, List.modifyHead_cons, List.mem_cons] at h
      rcases h with rfl | h
      · exact Nat.succ_le_succ (ih (by simp [hp]))
      · exact Nat.le_succ_of_le (ih (by simp [hp, h]))

theorem length_le_of_mem_elementsIn {b : Bracket} {cs e : List Char}
    (h : e ∈ b.elementsIn δ cs) : e.length ≤ cs.length := by
  unfold elementsIn at h
  split at h
  · simp at h
  · exact length_le_of_mem_pieces h

theorem length_le_of_mem_elements {b : Bracket} {cs e : List Char} (h : e ∈ b.elements cs) :
    e.length ≤ cs.length :=
  length_le_of_mem_elementsIn h

end Bracket

end Switchboard
