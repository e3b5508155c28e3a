import Switchboard.Pattern.Literal

namespace Switchboard

-- A name is a hole in a list and a type's name on its own. A chain of cells, written `(x:y:_)`, has
-- holes to count but matches no value.
inductive Pattern
  | wildcard
  | literal (l : Literal)
  | name (n : String)
  | list (ps : List Pattern)
  | cells (ps : List Pattern)

namespace Pattern

mutual

def decEq : (p q : Pattern) → Decidable (p = q)
  | wildcard, wildcard => .isTrue rfl
  | literal l, literal k => decidable_of_iff (l = k) (by simp)
  | name m, name n => decidable_of_iff (m = n) (by simp)
  | list ps, list qs => @decidable_of_iff _ (ps = qs) (by simp) (decEqList ps qs)
  | cells ps, cells qs => @decidable_of_iff _ (ps = qs) (by simp) (decEqList ps qs)
  | wildcard, literal _ | wildcard, name _ | wildcard, list _ | wildcard, cells _
  | literal _, wildcard | literal _, name _ | literal _, list _ | literal _, cells _
  | name _, wildcard | name _, literal _ | name _, list _ | name _, cells _
  | list _, wildcard | list _, literal _ | list _, name _ | list _, cells _
  | cells _, wildcard | cells _, literal _ | cells _, name _ | cells _, list _ => .isFalse nofun

def decEqList : (ps qs : List Pattern) → Decidable (ps = qs)
  | [], [] => .isTrue rfl
  | [], _ :: _ | _ :: _, [] => .isFalse nofun
  | p :: ps, q :: qs =>
    match decEq p q, decEqList ps qs with
    | .isTrue h, .isTrue t => .isTrue (h ▸ t ▸ rfl)
    | .isFalse h, _ => .isFalse fun e => h (List.cons.inj e).1
    | _, .isFalse t => .isFalse fun e => t (List.cons.inj e).2

end

instance : DecidableEq Pattern := decEq

def isWildcard : Pattern → Bool
  | wildcard => true
  | _ => false

def name? : Pattern → Option String
  | name n => some n
  | _ => none

def literal? : Pattern → Option Literal
  | literal l => some l
  | _ => none

def list? : Pattern → Option (List Pattern)
  | list ps => some ps
  | _ => none

mutual

def arity : Pattern → Nat
  | wildcard => 0
  | literal _ => 0
  | name _ => 1
  | list ps => arityAll ps
  | cells ps => arityAll ps

def arityAll : List Pattern → Nat
  | [] => 0
  | p :: ps => p.arity + arityAll ps

end

end Pattern

end Switchboard
