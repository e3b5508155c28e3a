import Mathlib.Data.List.Forall2
import Switchboard.Proofs.Pattern.Places

namespace Switchboard

namespace Binary64

variable {x y : Binary64}

theorem equals_congr (h : x.equals y) (z : Binary64) : x.equals z = y.equals z := by
  cases x <;> cases y <;> cases z <;> grind [equals]

theorem equals_ofInt_self (i : Int) : (ofInt i).equals (ofInt i) := by
  simp [ofInt, ofRatio, equals]

end Binary64

namespace Value

variable {v w : Value} {vs ws : List Value} {is : List Nat}

theorem equalsAll_iff : equalsAll vs ws ↔ List.Forall₂ (·.equals ·) vs ws := by
  induction vs generalizing ws
  case nil => cases ws <;> simp [equalsAll]
  case cons v vs hi => cases ws <;> simp [equalsAll, hi]

theorem equals_list_iff :
    (list vs).equals w ↔ ∃ ws, w = list ws ∧ List.Forall₂ (·.equals ·) vs ws := by
  cases w
  case list ws => simp [equals, equalsAll_iff]
  all_goals simp [equals]

theorem list?_eq_none_of_equals (h : v.equals w) (hv : v.list? = none) : w.list? = none := by
  cases v <;> cases w <;> simp_all [equals, list?]

theorem isEmptyScalar_of_equals (h : v.equals w) : v.isEmptyScalar = w.isEmptyScalar := by
  cases v <;> cases w <;> simp_all [equals, isEmptyScalar]

theorem at?_of_equals (h : v.equals w) : Option.Rel (·.equals ·) (v.at? is) (w.at? is) := by
  induction is generalizing v w
  case nil => exact .some h
  case cons i is hi =>
    cases v
    case list vs =>
      have ⟨ws, hw, hs⟩ := equals_list_iff.mp h
      have ⟨hl, hg⟩ := List.forall₂_iff_get.mp hs
      subst hw
      by_cases hv : i < vs.length
      case pos =>
        have hw : i < ws.length := hl ▸ hv
        simpa [at?, hv, hw] using hi (hg i hv hw)
      case neg =>
        have hw : ¬i < ws.length := hl ▸ hv
        simp only [at?, List.getElem?_eq_none (Nat.not_lt.mp hv),
          List.getElem?_eq_none (Nat.not_lt.mp hw)]
        exact .none
    all_goals
      have hw := list?_eq_none_of_equals h rfl
      cases w <;> first | exact .none | cases hw

end Value

end Switchboard
