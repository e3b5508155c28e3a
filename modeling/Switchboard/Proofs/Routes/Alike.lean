import Switchboard.Proofs.Routes.Growth
import Switchboard.Proofs.Routes.Specificity
import Switchboard.Proofs.Value.Equality

namespace Switchboard

variable {α : Type}

namespace Literal

variable {l : Literal} {i : Int64} {x : Binary64} {v w : Value}

-- The literal is another integer than `i`, and as doubles the two are the same.
def blurs (l : Literal) (i : Int64) : Bool :=
  match l.constant with
  | .int k => i != k && (Binary64.ofInt i.toInt).equals (.ofInt k.toInt)
  | _      => false

-- A literal that is the integer itself, or is told from it by its double, is compared alike.
theorem accepts_int_eq_float (h : (Binary64.ofInt i.toInt).equals x) (hb : l.blurs i = false) :
    l.accepts (.int i) = l.accepts (.float x) := by
  cases hc : l.constant
  case int k =>
    have hx : x.equals (.ofInt k.toInt) = (Binary64.ofInt i.toInt).equals (.ofInt k.toInt) :=
      (Binary64.equals_congr h _).symm
    simp only [accepts, hc, Constant.toBinary64?, Option.any_some, hx]
    by_cases hk : i = k
    case pos => simp [hk, Binary64.equals_ofInt_self]
    case neg =>
      have hn : (Binary64.ofInt i.toInt).equals (.ofInt k.toInt) = false := by
        simpa [blurs, hc, hk] using hb
      simp [hk, hn]
  case float y => simp [accepts, hc, Constant.toBinary64?, Binary64.equals_congr h]
  case text t  => simp [accepts, hc, Constant.toBinary64?]

end Literal

namespace Pattern

mutual

-- Somewhere in a pattern an integer literal is blurred: one value has an integer there, and the
-- other a double.
def blurs : Pattern → Value → Value → Bool
  | literal l, .int i, .float _  => l.blurs i
  | literal l, .float _, .int i  => l.blurs i
  | list ps, .list vs, .list ws  => blursAll ps vs ws
  | _, _, _                      => false

def blursAll : List Pattern → List Value → List Value → Bool
  | p :: ps, v :: vs, w :: ws => p.blurs v w || blursAll ps vs ws
  | _, _, _                   => false

end

variable {l : Literal} {ps : List Pattern} {v w : Value}

theorem literal_accepts_iff_of_equals (h : v.equals w) (hb : (literal l).blurs v w = false) :
    l.accepts v = l.accepts w := by
  cases v <;> cases w
  case int.float  => exact Literal.accepts_int_eq_float h hb
  case float.int  => exact (Literal.accepts_int_eq_float h hb).symm
  case float.float => simp [Literal.accepts, funext (Binary64.equals_congr h)]
  case list.list | object.object => rfl
  all_goals simp_all [Value.equals]

mutual

theorem accepts_iff_of_equals : ∀ (p : Pattern) {v w : Value}, v.equals w → p.blurs v w = false →
    (p.Accepts v ↔ p.Accepts w)
  | wildcard, _, _, _, _ => iff_of_true .wildcard .wildcard
  | name n, _, _, _, _ => iff_of_true .name .name
  | literal l, v, w, h, hb => by
    rw [literal_accepts_iff, literal_accepts_iff, literal_accepts_iff_of_equals h hb]
  | cells ps, _, _, _, _ => iff_of_false nofun nofun
  | list ps, v, w, h, hb => by
    cases hv : v.list?
    case none =>
      have hw := Value.list?_eq_none_of_equals h hv
      exact iff_of_false (not_list_accepts hv) (not_list_accepts hw)
    case some vs =>
      cases v <;> cases hv
      have ⟨ws, hw, hs⟩ := Value.equals_list_iff.mp h
      subst hw
      rw [list_accepts_iff, list_accepts_iff]
      exact forall₂_accepts_iff_of_equals ps hs hb

theorem forall₂_accepts_iff_of_equals : ∀ (ps : List Pattern) {vs ws : List Value},
    List.Forall₂ (·.equals ·) vs ws → blursAll ps vs ws = false →
    (List.Forall₂ Accepts ps vs ↔ List.Forall₂ Accepts ps ws)
  | [], _, _, .nil, _ => Iff.rfl
  | [], _, _, .cons _ _, _ => iff_of_false nofun nofun
  | _ :: _, _, _, .nil, _ => Iff.rfl
  | p :: ps, _, _, .cons h hs, hb => by
    simp only [blursAll, Bool.or_eq_false_iff] at hb
    rw [List.forall₂_cons, List.forall₂_cons, accepts_iff_of_equals p h hb.left,
      forall₂_accepts_iff_of_equals ps hs hb.right]

end

end Pattern

namespace Choice

inductive Alike : Choice α → Choice α → Prop
  | route (h : List.Forall₂ (·.equals ·) args args') : Alike (.route r args) (.route r args')
  | unanswered : Alike .unanswered .unanswered

theorem Alike.answer_eq {β : Type} {c d : Choice α} {f : Route α → β} {b : β} (h : c.Alike d) :
    c.answer (fun r _ => f r) b = d.answer (fun r _ => f r) b := by
  cases h <;> rfl

end Choice

namespace Route

variable {r : Route α} {v w : Value} {vs : List Value} {registry : Registry}

-- Objects are looked at for their type alone, and a literal that suits a scalar accepts it.
theorem suits_eq_of_equals (h : v.equals w) (hv : v.list? = none)
    (ho : ∀ o q, v = .object o → w = .object q → o.identity = q.identity → o.typeName = q.typeName)
    (ha : r.pattern.Accepts v ↔ r.pattern.Accepts w) : r.suits registry v = r.suits registry w := by
  have hs : r.suitsScalar v = r.suitsScalar w := by
    rw [Bool.eq_iff_iff, suitsScalar_iff, suitsScalar_iff, Value.isEmptyScalar_of_equals h]
    refine and_congr_right fun _ => exists_congr fun l => and_congr_right fun hl => ?_
    rwa [Pattern.literal?_eq_some_iff.mp hl, Pattern.literal_accepts_iff,
      Pattern.literal_accepts_iff] at ha
  cases v <;> cases w
  case object.object o q => simp [suits, suitsObject, ho o q rfl rfl (beq_iff_eq.mp h)]
  case list.list => cases hv
  all_goals first | exact hs | cases h

end Route

namespace Routes

variable {rs : Routes α} {r q : Route α} {qs : List (Route α)} {v w : Value}
variable {vs ws args args' : List Value} {registry : Registry}

theorem alike_fallback (rs : Routes α) : rs.fallback.Alike rs.fallback := by
  rw [fallback]
  split
  case h_1 => exact .route .nil
  case h_2 => exact .unanswered

-- Two routes that are each the first that suits, but suit on either side, are one route.
theorem eq_of_find?_eq_some {p p' : Route α → Bool} (hr : qs.find? p = some r)
    (hq : qs.find? p' = some q) (hr' : p' r) (hq' : p q) : r = q := by
  induction qs
  case nil => cases hr
  case cons s qs hi =>
    simp only [List.find?_cons] at hr hq
    split at hr
    case h_1 =>
      cases hr
      simpa [hr'] using hq
    case h_2 hs =>
      split at hq
      case h_1 =>
        cases hq
        exact absurd hq' (by simp [hs])
      case h_2 => exact hi hr hq

theorem alike_first {suits suits' : Route α → Bool}
    (h : ∀ r, rs.competing.find? suits = some r ∨ rs.competing.find? suits' = some r →
      suits r = suits' r) :
    (rs.first suits []).Alike (rs.first suits' []) := by
  cases hr : rs.competing.find? suits <;> cases hq : rs.competing.find? suits'
  case none.none => simpa [first, hr, hq] using alike_fallback rs
  case none.some q =>
    have hs := List.find?_some hq
    have hn := List.find?_eq_none.mp hr q (List.mem_of_find?_eq_some hq)
    exact absurd (h q (.inr hq) ▸ hs) hn
  case some.none r =>
    have hs := List.find?_some hr
    have hn := List.find?_eq_none.mp hq r (List.mem_of_find?_eq_some hr)
    exact absurd (h r (.inl hr) ▸ hs) hn
  case some.some r q =>
    have hr' := h r (.inl hr) ▸ List.find?_some hr
    have hq' := h q (.inr hq) ▸ List.find?_some hq
    have he := eq_of_find?_eq_some hr hq hr' hq'
    rw [first_eq_route hr, first_eq_route hq, he]
    exact .route .nil

theorem forall₂_equals_of_at? {places : List (List Nat)} (h : v.equals w)
    (hv : args.map some = places.map v.at?) (hw : args'.map some = places.map w.at?) :
    List.Forall₂ (·.equals ·) args args' := by
  have hp : List.Forall₂ (Option.Rel (·.equals ·)) (places.map v.at?) (places.map w.at?) := by
    rw [List.forall₂_map_left_iff, List.forall₂_map_right_iff, List.forall₂_same]
    exact fun is _ => Value.at?_of_equals h
  rw [← hv, ← hw, List.forall₂_map_left_iff, List.forall₂_map_right_iff] at hp
  exact hp.imp fun | _, _, .some h => h

theorem alike_matchList (h : (Value.list vs).equals (.list ws))
    (ha : ∀ r args, rs.matchList vs = .route r args ∨ rs.matchList ws = .route r args →
      (r.Accepts vs ↔ r.Accepts ws)) :
    (rs.matchList vs).Alike (rs.matchList ws) := by
  have hv := routed_matchList rs vs
  have hw := routed_matchList rs ws
  generalize rs.matchList vs = c at ha hv
  generalize rs.matchList ws = d at ha hw
  cases hv
  case taken r args ht hx =>
    have hr := (ha r args (.inl rfl)).mp ht.accepts
    cases hw
    case taken q args' hq hy =>
      cases ht.eq_of_accepts hq hr ((ha q args' (.inr rfl)).mpr hq.accepts)
      exact .route (forall₂_equals_of_at? h hx hy)
    case fallen hn _     => exact absurd hr (hn r ht.mem)
    case unanswered hn _ => exact absurd hr (hn r ht.mem)
  case fallen r hn hf =>
    cases hw
    case taken q args hq _ =>
      exact absurd ((ha q args (.inr rfl)).mpr hq.accepts) (hn q hq.mem)
    case fallen q _ hq =>
      cases hf.symm.trans hq
      exact .route .nil
    case unanswered _ hu => simp [fallback?_eq_none_iff.mpr hu] at hf
  case unanswered hn hu =>
    cases hw
    case taken q args hq _ =>
      exact absurd ((ha q args (.inr rfl)).mpr hq.accepts) (hn q hq.mem)
    case fallen hf  => simp [fallback?_eq_none_iff.mpr hu] at hf
    case unanswered => exact .unanswered

-- 2^53 + 1 rounds to 2^53, which is another integer.
theorem not_alike_rounded :
    (Value.int 9007199254740993).equals (.float (.ofInt 9007199254740992)) ∧
      ¬((ofList [("\"9007199254740992\"", 0), ("_", 1)]).matchIn .builtin
          (.int 9007199254740993)).Alike
        ((ofList [("\"9007199254740992\"", 0), ("_", 1)]).matchIn .builtin
          (.float (.ofInt 9007199254740992))) := by
  refine ⟨by decide +kernel, fun h => ?_⟩
  have hn := h.answer_eq (f := Route.handler) (b := 2)
  revert hn
  decide +kernel

-- Equal values are routed alike unless the route that one of them takes does not accept the other,
-- and one of its literals is blurred. Objects of one identity are one object, and so of one type.
theorem alike_matchIn (h : v.equals w)
    (ho : ∀ o q, v = .object o → w = .object q → o.identity = q.identity → o.typeName = q.typeName)
    (hb : ∀ r args,
      rs.matchIn registry v = .route r args ∨ rs.matchIn registry w = .route r args →
        r.pattern.blurs v w → (r.pattern.Accepts v ↔ r.pattern.Accepts w)) :
    (rs.matchIn registry v).Alike (rs.matchIn registry w) := by
  have ha : ∀ r args,
      rs.matchIn registry v = .route r args ∨ rs.matchIn registry w = .route r args →
        (r.pattern.Accepts v ↔ r.pattern.Accepts w) := by
    intro r args hr
    cases hc : r.pattern.blurs v w
    case false => exact Pattern.accepts_iff_of_equals _ h hc
    case true  => exact hb r args hr hc
  cases hv : v.list?
  case none =>
    have hw := Value.list?_eq_none_of_equals h hv
    rw [matchIn_eq_first hv, matchIn_eq_first hw] at *
    refine alike_first fun r hr => Route.suits_eq_of_equals h hv ho (ha r [] ?_)
    exact hr.imp first_eq_route first_eq_route
  case some vs =>
    cases v <;> cases hv
    have ⟨ws, hw, _⟩ := Value.equals_list_iff.mp h
    subst hw
    refine alike_matchList h fun r args hr => ?_
    rw [Route.accepts_iff, Route.accepts_iff, ha r args hr]

-- The first route is blurred, but accepts neither of the lists.
theorem alike_matchIn_rounded :
    (Value.list [.int 9007199254740993, .int 1]).equals
        (.list [.float (.ofInt 9007199254740992), .float (.ofInt 1)]) ∧
      ((ofList [("[\"9007199254740992\", \"2\"]", 0), ("[\"9007199254740993\", x]", 1)]).matchIn
          .builtin (.list [.int 9007199254740993, .int 1])).Alike
        ((ofList [("[\"9007199254740992\", \"2\"]", 0), ("[\"9007199254740993\", x]", 1)]).matchIn
          .builtin (.list [.float (.ofInt 9007199254740992), .float (.ofInt 1)])) := by
  refine ⟨by decide +kernel, alike_matchIn (by decide +kernel) nofun fun r args hr _ => ?_⟩
  have hm := hr.elim mem_of_matchIn_eq_route mem_of_matchIn_eq_route
  have ha : (ofList [("[\"9007199254740992\", \"2\"]", 0),
      ("[\"9007199254740993\", x]", 1)]).routes.all fun r =>
        (r.pattern.bind? (.list [.int 9007199254740993, .int 1])).isSome ==
          (r.pattern.bind?
            (.list [.float (.ofInt 9007199254740992), .float (.ofInt 1)])).isSome := by
    decide +kernel
  rw [← Pattern.isSome_bind?_iff, ← Pattern.isSome_bind?_iff]
  exact Bool.eq_iff_iff.mp (beq_iff_eq.mp (List.all_eq_true.mp ha r hm))

end Routes

end Switchboard
