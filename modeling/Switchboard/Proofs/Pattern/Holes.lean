import Mathlib.Data.List.Sort
import Switchboard.Proofs.Pattern.Places

namespace Switchboard

namespace Pattern

def hole : Option String → Pattern
  | some n => name n
  | none   => wildcard

mutual

-- Gives the holes other names, or none. A name outside of all lists is no hole but a type, and a
-- wildcard there only catches what falls through, so they stay.
def refilled (f : Option String → Option String) (inList : Bool) : Pattern → Pattern
  | wildcard  => if inList then hole (f none) else wildcard
  | name n    => if inList then hole (f (some n)) else name n
  | literal l => literal l
  | list ps   => list (refilledAll f true ps)
  | cells ps  => cells (refilledAll f inList ps)

def refilledAll (f : Option String → Option String) (inList : Bool) : List Pattern → List Pattern
  | []      => []
  | p :: ps => p.refilled f inList :: refilledAll f inList ps

end

def nameless (p : Pattern) : Pattern :=
  p.refilled (fun _ => none) false

def uniform (p : Pattern) : Pattern :=
  p.refilled (Option.map fun _ => "") false

-- The arguments under the names of `p`, but for those where `q` has a wildcard.
def shared (p q : Pattern) (args : List Value) : List Value :=
  (((p.places isName).zip args).filter fun a => q.at? a.1 ≠ some wildcard).map Prod.snd

variable {f : Option String → Option String} {b : Bool} {p q : Pattern} {ps qs : List Pattern}
variable {v : Value} {args args' : List Value} {is : List Nat} {s : Pattern → Bool}

theorem isOpen_hole (o : Option String) : (hole o).isOpen := by
  cases o <;> rfl

theorem isName_hole (o : Option String) : (hole o).isName = o.isSome := by
  cases o <;> rfl

theorem list?_hole (o : Option String) : (hole o).list? = none := by
  cases o <;> rfl

theorem isOpen_refilled (b : Bool) (p : Pattern) : (p.refilled f b).isOpen = p.isOpen := by
  cases p <;> cases b
  case wildcard.true => exact isOpen_hole _
  case name.true     => exact isOpen_hole _
  all_goals rfl

theorem isName_refilled (h : ∀ o, (f o).isSome = o.isSome) (b : Bool) (p : Pattern) :
    (p.refilled f b).isName = p.isName := by
  cases p <;> cases b
  case wildcard.true => exact (isName_hole _).trans (h _)
  case name.true     => exact (isName_hole _).trans (h _)
  all_goals rfl

theorem list?_refilled (b : Bool) (p : Pattern) :
    (p.refilled f b).list? = p.list?.map (refilledAll f true) := by
  cases p <;> cases b
  case wildcard.true => exact list?_hole _
  case name.true     => exact list?_hole _
  all_goals rfl

mutual

theorem accepts_refilled : ∀ (b : Bool) (p : Pattern) {v : Value},
    (p.refilled f b).Accepts v ↔ p.Accepts v
  | b, list ps, v => by
    cases v
    case list vs =>
      rw [refilled, list_accepts_iff, list_accepts_iff]
      exact forall₂_accepts_refilledAll true ps
    all_goals exact iff_of_false nofun nofun
  | true, wildcard, _ => iff_of_true (accepts_of_isOpen (isOpen_hole _) _) .wildcard
  | true, name _, _   => iff_of_true (accepts_of_isOpen (isOpen_hole _) _) .name
  | false, wildcard, _ | false, name _, _ | _, literal _, _ => Iff.rfl
  | _, cells _, _     => iff_of_false nofun nofun

theorem forall₂_accepts_refilledAll : ∀ (b : Bool) (ps : List Pattern) {vs : List Value},
    List.Forall₂ Accepts (refilledAll f b ps) vs ↔ List.Forall₂ Accepts ps vs
  | _, [], _ => Iff.rfl
  | b, p :: ps, [] => iff_of_false nofun nofun
  | b, p :: ps, v :: vs => by
    rw [refilledAll, List.forall₂_cons, List.forall₂_cons, accepts_refilled b p,
      forall₂_accepts_refilledAll b ps]

end

theorem places_of_list?_eq_none (h : p.list? = none) :
    p.places s = if s p then [[]] else [] := by
  cases p
  case list => cases h
  all_goals rfl

mutual

theorem places_refilled (h : ∀ b p, (p.refilled f b).list? = none → s (p.refilled f b) = s p) :
    ∀ (b : Bool) (p : Pattern), (p.refilled f b).places s = p.places s
  | _, list ps => placesFrom_refilledAll h 0 true ps
  | b, wildcard | b, name _ | b, literal _ | b, cells _ => by
    have hl := list?_refilled (f := f) b
    rw [places_of_list?_eq_none (hl _), places_of_list?_eq_none rfl, h b _ (hl _)]

theorem placesFrom_refilledAll
    (h : ∀ b p, (p.refilled f b).list? = none → s (p.refilled f b) = s p) :
    ∀ (i : Nat) (b : Bool) (ps : List Pattern),
      placesFrom s i (refilledAll f b ps) = placesFrom s i ps
  | _, _, [] => rfl
  | i, b, p :: ps => by
    rw [refilledAll, placesFrom, placesFrom, places_refilled h b p,
      placesFrom_refilledAll h (i + 1) b ps]

end

theorem places_isOpen_of_nameless_eq (h : p.nameless = q.nameless) :
    p.places isOpen = q.places isOpen := by
  have hr (p : Pattern) : p.nameless.places isOpen = p.places isOpen :=
    places_refilled (fun b p _ => isOpen_refilled b p) false p
  rw [← hr, h, hr]

theorem places_isName_of_uniform_eq (h : p.uniform = q.uniform) :
    p.places isName = q.places isName := by
  have hr (p : Pattern) : p.uniform.places isName = p.places isName :=
    places_refilled (fun b p _ => isName_refilled (by simp) b p) false p
  rw [← hr, h, hr]

theorem mem_places_isOpen (h : is ∈ p.places isName) : is ∈ p.places isOpen := by
  have ⟨q, ha, hl, hn⟩ := mem_places_iff.mp h
  refine mem_places_iff.mpr ⟨q, ha, hl, ?_⟩
  cases q
  case name => rfl
  all_goals cases hn

theorem at?_ne_wildcard_iff (h : is ∈ q.places isOpen) :
    q.at? is ≠ some wildcard ↔ is ∈ q.places isName := by
  have ⟨r, ha, hl, ho⟩ := mem_places_iff.mp h
  rw [mem_places_iff, ha]
  cases r
  case wildcard => simp [isName, name?]
  case name n   => simp [isName, name?, list?]
  all_goals cases ho

-- The places of the names that remain are those of the holes with names on either side. Both lists
-- go from left to right, so it is enough that they have the same members.
theorem filter_places_comm (h : p.places isOpen = q.places isOpen) :
    (p.places isName).filter (fun is => q.at? is ≠ some wildcard) =
      (q.places isName).filter (fun is => p.at? is ≠ some wildcard) := by
  have hp := (pairwise_places (s := isName) p).filter fun is => q.at? is ≠ some wildcard
  have hq := (pairwise_places (s := isName) q).filter fun is => p.at? is ≠ some wildcard
  refine hp.eq_of_mem_iff hq fun is => ?_
  simp only [List.mem_filter, decide_eq_true_eq]
  constructor
  case mp =>
    intro ⟨hn, ha⟩
    have ho := mem_places_isOpen hn
    exact ⟨(at?_ne_wildcard_iff (h ▸ ho)).mp ha, (at?_ne_wildcard_iff ho).mpr hn⟩
  case mpr =>
    intro ⟨hn, ha⟩
    have ho := mem_places_isOpen hn
    exact ⟨(at?_ne_wildcard_iff (h ▸ ho)).mp ha, (at?_ne_wildcard_iff ho).mpr hn⟩

theorem map_some_filter_zip {xs : List (List Nat)} {c : List Nat → Bool} :
    ∀ {args : List Value}, args.map some = xs.map v.at? →
      (((xs.zip args).filter fun a => c a.1).map Prod.snd).map some = (xs.filter c).map v.at? := by
  induction xs
  case nil => simp
  case cons is xs hi =>
    intro args h
    cases args
    case nil => cases h
    case cons a args =>
      have ⟨ha, hs⟩ := List.cons_eq_cons.mp h
      cases hc : c is <;> simp [hc, ha, hi hs]

theorem shared_comm (h : p.nameless = q.nameless) (hp : args.map some = (p.places isName).map v.at?)
    (hq : args'.map some = (q.places isName).map v.at?) : p.shared q args = q.shared p args' := by
  apply (List.map_inj_right fun _ _ => Option.some.inj).mp
  have hs := filter_places_comm (places_isOpen_of_nameless_eq h)
  exact (map_some_filter_zip hp).trans ((congrArg _ hs).trans (map_some_filter_zip hq).symm)

theorem eq_of_uniform_eq (h : p.uniform = q.uniform)
    (hp : args.map some = (p.places isName).map v.at?)
    (hq : args'.map some = (q.places isName).map v.at?) : args = args' := by
  apply (List.map_inj_right fun _ _ => Option.some.inj).mp
  rw [hp, hq, places_isName_of_uniform_eq h]

end Pattern

end Switchboard
