import Mathlib.Data.List.Forall2

namespace Switchboard

variable {ε α β γ : Type}

theorem forall_mem_of_forall₂ {R : α → β → Prop} {P : α → Prop} {xs : List α} {ys : List β}
    (h : List.Forall₂ R xs ys) (hr : ∀ {x y}, R x y → P x) : ∀ x ∈ xs, P x := by
  induction h
  case nil          => simp
  case cons h _ hi => simpa using ⟨hr h, hi⟩

theorem exists_forall₂_of_forall {R : α → β → Prop} {xs : List α} (h : ∀ x ∈ xs, ∃ y, R x y) :
    ∃ ys, List.Forall₂ R xs ys := by
  induction xs
  case nil => exact ⟨[], .nil⟩
  case cons x xs hi =>
    have ⟨hx, hs⟩ := List.forall_mem_cons.mp h
    have ⟨_, hy⟩ := hx
    have ⟨_, hz⟩ := hi hs
    exact ⟨_, .cons hy hz⟩

inductive Gathers (R : α → List β → Prop) : List α → List β → Prop
  | nil : Gathers R [] []
  | cons (h : R x ys) (hs : Gathers R xs zs) : Gathers R (x :: xs) (ys ++ zs)

namespace Gathers

variable {R : α → List β → Prop} {xs : List α} {x : α} {ys : List β} {y : β} {f : γ → α}
variable {zs : List γ}

theorem iff_forall₂ : Gathers R xs ys ↔ ∃ yss, List.Forall₂ R xs yss ∧ yss.flatten = ys := by
  constructor
  case mp =>
    intro h
    induction h
    case nil => exact ⟨[], .nil, rfl⟩
    case cons ys _ _ h _ hi =>
      have ⟨yss, hs, hy⟩ := hi
      exact ⟨ys :: yss, .cons h hs, by rw [List.flatten_cons, hy]⟩
  case mpr =>
    intro ⟨yss, h, hy⟩
    subst hy
    induction h
    case nil         => exact .nil
    case cons h _ hi => exact .cons h hi

theorem map_iff : Gathers R (zs.map f) ys ↔ Gathers (fun z => R (f z)) zs ys := by
  simp only [iff_forall₂, List.forall₂_map_left_iff]

theorem exists_of_mem (h : Gathers R xs ys) (hx : x ∈ xs) : ∃ zs, R x zs ∧ ∀ z ∈ zs, z ∈ ys := by
  induction h
  case nil => cases hx
  case cons h _ hi =>
    cases hx
    case head    => exact ⟨_, h, fun _ => List.mem_append_left _⟩
    case tail hx =>
      have ⟨zs, hz, hm⟩ := hi hx
      exact ⟨zs, hz, fun z h => List.mem_append_right _ (hm z h)⟩

theorem exists_mem (h : Gathers R xs ys) (hy : y ∈ ys) : ∃ x ∈ xs, ∃ zs, R x zs ∧ y ∈ zs := by
  induction h
  case nil => cases hy
  case cons x ys _ _ h _ hi =>
    cases List.mem_append.mp hy
    case inl hy => exact ⟨x, List.mem_cons_self, ys, h, hy⟩
    case inr hy =>
      have ⟨x, hm, hx⟩ := hi hy
      exact ⟨x, List.mem_cons_of_mem _ hm, hx⟩

theorem exists_of_forall (h : ∀ x ∈ xs, ∃ ys, R x ys) : ∃ ys, Gathers R xs ys := by
  have ⟨yss, hs⟩ := exists_forall₂_of_forall h
  exact ⟨yss.flatten, iff_forall₂.mpr ⟨yss, hs, rfl⟩⟩

end Gathers

namespace Outcome

variable {x : Except ε α} {f : α → Except ε β} {xs : List α} {ys : List β} {y : β}

theorem bind_eq_ok_iff : x >>= f = .ok y ↔ ∃ a, x = .ok a ∧ f a = .ok y := by
  cases x <;> simp [bind, Except.bind]

theorem exists_eq_ok (h : ∀ f, x ≠ .error f) : ∃ a, x = .ok a := by
  cases x
  case error f => exact absurd rfl (h f)
  case ok a    => exact ⟨a, rfl⟩

theorem map_eq_ok_iff {f : α → β} : x.map f = .ok y ↔ ∃ a, x = .ok a ∧ f a = y := by
  cases x <;> simp [Except.map]

theorem mapError_eq_ok_iff {ζ : Type} {f : ε → ζ} {a : α} :
    x.mapError f = .ok a ↔ x = .ok a := by
  cases x <;> simp [Except.mapError]

theorem exists_eq_map_ok {zs : List (Except ε α)} (h : ∀ f, .error f ∉ zs) :
    ∃ ys : List α, zs = ys.map .ok := by
  have ⟨ys, hy⟩ : ∃ ys, List.Forall₂ (fun z y => z = .ok y) zs ys :=
    exists_forall₂_of_forall fun z hz => exists_eq_ok fun f hf => h f (hf ▸ hz)
  exact ⟨ys, List.forall₂_eq_eq_eq ▸ List.forall₂_map_right_iff.mpr hy⟩

theorem pure_eq_ok_iff {a b : α} : pure a = (.ok b : Except ε α) ↔ a = b := by
  simp [pure, Except.pure]

theorem ite_bind_eq_ok_iff {b : Bool} {s : Except ε Unit} {t : Except ε β} :
    (if b then s >>= fun _ => t else t) = .ok y ↔ (b → s = .ok ()) ∧ t = .ok y := by
  cases b <;> cases s <;> simp [bind, Except.bind]

theorem mapM_eq_ok_iff : xs.mapM f = .ok ys ↔ List.Forall₂ (fun x y => f x = .ok y) xs ys := by
  induction xs generalizing ys
  case nil => cases ys <;> simp [pure, Except.pure]
  case cons x xs hi =>
    simp only [List.mapM_cons, bind_eq_ok_iff, hi, pure_eq_ok_iff, List.forall₂_cons_left_iff]
    constructor
    case mp  => exact fun ⟨y, hy, zs, hz, h⟩ => ⟨y, zs, hy, hz, h.symm⟩
    case mpr => exact fun ⟨y, zs, hy, hz, h⟩ => ⟨y, hy, zs, hz, h.symm⟩

theorem mapM_mapError_eq_ok_iff {ζ : Type} {zs : List (Except ε α)} {f : ε → ζ} {ys : List α} :
    zs.mapM (·.mapError f) = .ok ys ↔ zs = ys.map .ok := by
  rw [← List.forall₂_eq_eq_eq, List.forall₂_map_right_iff, mapM_eq_ok_iff]
  simp only [mapError_eq_ok_iff]

theorem flatten_mapM_eq_ok_iff {f : α → Except ε (List β)} :
    (do return (← xs.mapM f).flatten) = Except.ok ys ↔
      Gathers (fun x ys => f x = .ok ys) xs ys := by
  simp only [bind_eq_ok_iff, mapM_eq_ok_iff, pure_eq_ok_iff, Gathers.iff_forall₂]

end Outcome

end Switchboard
