import Mathlib.Data.List.Forall2
import Switchboard.Proofs.Decimal.Integers
import Switchboard.Template

namespace Switchboard.Template

open Decimal (IsDigits magnitude)

-- The texts that ask for the binding at a position, which has 64 bits.
inductive Asks : String → Nat → Prop
  | plain (hs : s.toList = '$' :: ds) (hd : IsDigits ds) (hl : magnitude ds < 2 ^ 64) :
    Asks s (magnitude ds)
  | plus (hs : s.toList = '$' :: '+' :: ds) (hd : IsDigits ds) (hl : magnitude ds < 2 ^ 64) :
    Asks s (magnitude ds)

-- A template and what it is rendered to. Arrays stay as long as they are, and objects keep their
-- keys and the order of them. A binding goes in as it is, whatever it asks for itself.
inductive Renders (bindings : List Json) : Json → Json → Prop
  | bound (ha : Asks s n) (hb : bindings[n]? = some x) : Renders bindings (.text s) x
  | text (hn : ∀ n < bindings.length, ¬Asks s n) : Renders bindings (.text s) (.text s)
  | null : Renders bindings .null .null
  | bool : Renders bindings (.bool b) (.bool b)
  | whole : Renders bindings (.whole i) (.whole i)
  | real : Renders bindings (.real r) (.real r)
  | array (hs : List.Forall₂ (Renders bindings) xs ys) : Renders bindings (.array xs) (.array ys)
  | object (hk : ms.map Prod.fst = ns.map Prod.fst)
    (hs : List.Forall₂ (Renders bindings) (ms.map Prod.snd) (ns.map Prod.snd)) :
    Renders bindings (.object ms) (.object ns)

variable {bindings : List Json} {s : String} {n : Nat} {x y : Json} {ms : List (String × Json)}

theorem asks_iff : Asks s n ↔ ∃ cs, s.toList = '$' :: cs ∧ Decimal.size? cs = some n := by
  simp only [Decimal.size?, Option.filter_eq_some_iff, Decimal.natural?_eq_some_iff,
    decide_eq_true_eq]
  constructor
  case mp =>
    intro h
    cases h
    case plain ds hd hl hs => exact ⟨ds, hs, ⟨ds, .inl rfl, hd, rfl⟩, hl⟩
    case plus ds hd hl hs  => exact ⟨'+' :: ds, hs, ⟨ds, .inr rfl, hd, rfl⟩, hl⟩
  case mpr =>
    rintro ⟨cs, hs, ⟨ds, rfl | rfl, hd, rfl⟩, hl⟩
    · exact .plain hs hd hl
    · exact .plus hs hd hl

theorem placeholder?_eq_some_iff :
    placeholder? bindings s = some x ↔ ∃ n, Asks s n ∧ bindings[n]? = some x := by
  simp only [asks_iff]
  unfold placeholder?
  split
  case h_1 cs hs => simp [Option.bind_eq_some_iff, hs]
  case h_2 hs =>
    refine iff_of_false nofun ?_
    rintro ⟨n, ⟨cs, hc, _⟩, _⟩
    exact hs cs hc

theorem placeholder?_eq_none_iff :
    placeholder? bindings s = none ↔ ∀ n < bindings.length, ¬Asks s n := by
  rw [Option.eq_none_iff_forall_ne_some]
  constructor
  case mp =>
    intro h n hl ha
    exact h _ (placeholder?_eq_some_iff.mpr ⟨n, ha, List.getElem?_eq_getElem hl⟩)
  case mpr =>
    intro h x hx
    have ⟨n, ha, hb⟩ := placeholder?_eq_some_iff.mp hx
    have ⟨hl, _⟩ := List.getElem?_eq_some_iff.mp hb
    exact h n hl ha

theorem renders_text_iff :
    Renders bindings (.text s) y ↔ (placeholder? bindings s).getD (.text s) = y := by
  constructor
  case mp =>
    intro h
    cases h
    case bound n ha hb => rw [placeholder?_eq_some_iff.mpr ⟨n, ha, hb⟩, Option.getD_some]
    case text hn       => rw [placeholder?_eq_none_iff.mpr hn, Option.getD_none]
  case mpr =>
    rintro rfl
    cases hp : placeholder? bindings s
    case none   => exact .text (placeholder?_eq_none_iff.mp hp)
    case some x =>
      have ⟨n, ha, hb⟩ := placeholder?_eq_some_iff.mp hp
      exact .bound ha hb

theorem keys_renderMembers : (renderMembers bindings ms).map Prod.fst = ms.map Prod.fst := by
  induction ms
  case nil          => rfl
  case cons m ms hi => rw [renderMembers, List.map_cons, hi, List.map_cons]

mutual

theorem renders_render : ∀ x : Json, Renders bindings x (render bindings x)
  | .text _    => renders_text_iff.mpr rfl
  | .array xs  => .array (forall₂_renderAll xs)
  | .object ms => .object keys_renderMembers.symm (forall₂_renderMembers ms)
  | .null      => .null
  | .bool _    => .bool
  | .whole _   => .whole
  | .real _    => .real

theorem forall₂_renderAll : ∀ xs : List Json,
    List.Forall₂ (Renders bindings) xs (renderAll bindings xs)
  | []      => .nil
  | x :: xs => .cons (renders_render x) (forall₂_renderAll xs)

theorem forall₂_renderMembers : ∀ ms : List (String × Json),
    List.Forall₂ (Renders bindings) (ms.map Prod.snd) ((renderMembers bindings ms).map Prod.snd)
  | []           => .nil
  | (_, x) :: ms => .cons (renders_render x) (forall₂_renderMembers ms)

end

mutual

theorem render_of_renders : ∀ (x : Json) {y : Json}, Renders bindings x y → render bindings x = y
  | .text _, _, h => renders_text_iff.mp h
  | .array xs, _, h => by
    cases h
    case array hs => rw [render, renderAll_of_forall₂ xs hs]
  | .object ms, _, h => by
    cases h
    case object hk hs => rw [render, renderMembers_of_forall₂ ms _ hk hs]
  | .null, _, .null | .bool _, _, .bool | .whole _, _, .whole | .real _, _, .real => rfl

theorem renderAll_of_forall₂ : ∀ (xs : List Json) {ys : List Json},
    List.Forall₂ (Renders bindings) xs ys → renderAll bindings xs = ys
  | [], _, .nil          => rfl
  | x :: xs, _, .cons h hs => by
    rw [renderAll, render_of_renders x h, renderAll_of_forall₂ xs hs]

theorem renderMembers_of_forall₂ : ∀ (ms ns : List (String × Json)),
    ms.map Prod.fst = ns.map Prod.fst →
      List.Forall₂ (Renders bindings) (ms.map Prod.snd) (ns.map Prod.snd) →
        renderMembers bindings ms = ns
  | [], [], _, _ => rfl
  | (k, x) :: ms, (j, y) :: ns, hk, .cons h hs => by
    have ⟨he, hk⟩ := List.cons.inj hk
    rw [renderMembers, render_of_renders x h, renderMembers_of_forall₂ ms ns hk hs]
    exact congrArg (fun k => (k, y) :: ns) he

end

theorem render_eq_iff_renders : render bindings x = y ↔ Renders bindings x y := by
  constructor
  case mp =>
    rintro rfl
    exact renders_render x
  case mpr => exact render_of_renders x

end Switchboard.Template
