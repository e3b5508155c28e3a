import Switchboard.Wrapper.Action
import Switchboard.Wrapper.Branches
import Switchboard.Wrapper.Maybe
import Switchboard.Wrapper.Reader
import Switchboard.Wrapper.State

namespace Switchboard

-- The operations that wrappers have in common. What is wrapped is taken out by means of something
-- of type `ι`, such as the state to start from, and comes out as `X`.
structure Wrapper (F X : Type → Type) (ι : Type) where
  of      : ∀ {α : Type}, α → F α
  map     : ∀ {α β : Type}, (α → β) → F α → F β
  bind    : ∀ {α β : Type}, F α → (α → F β) → F β
  ap      : ∀ {α β : Type}, F (α → β) → F α → F β
  extract : ∀ {α : Type}, F α → ι → X α
  flatMap : ∀ {α β : Type}, F α → ι → (α → β) → X β

-- Wrappers are nothing but what they give: a result, the items in order, the value and the state
-- for each state to start from, the value in each environment, or the value and the labels after
-- each log. So they are equal if these are.
structure Wrapper.Lawful {F X : Type → Type} {ι : Type} (w : Wrapper F X ι) : Prop where
  of_bind    : ∀ {α β : Type} (a : α) (f : α → F β), w.bind (w.of a) f = f a
  bind_of    : ∀ {α : Type} (m : F α), w.bind m w.of = m
  bind_assoc : ∀ {α β γ : Type} (m : F α) (f : α → F β) (g : β → F γ),
                 w.bind (w.bind m f) g = w.bind m fun a => w.bind (f a) g
  map_eq     : ∀ {α β : Type} (h : α → β) (m : F α), w.map h m = w.bind m fun a => w.of (h a)
  ap_eq      : ∀ {α β : Type} (mf : F (α → β)) (m : F α), w.ap mf m = w.bind mf (w.map · m)
  flatMap_eq : ∀ {α β : Type} (m : F α) (i : ι) (h : α → β),
                 w.flatMap m i h = w.extract (w.map h m) i

namespace Maybe

variable {α β γ : Type}

def toOption : Maybe α → Option α
  | just a  => some a
  | nothing => none

def wrapper : Wrapper Maybe Option Unit where
  of            := of
  map           := map
  bind          := bind
  ap            := ap
  extract m _   := m.toOption
  flatMap m _ h := m.flatMap h

theorem lawful : wrapper.Lawful where
  of_bind _ _        := rfl
  bind_of m          := by cases m <;> rfl
  bind_assoc m _ _   := by cases m <;> rfl
  map_eq _ _         := rfl
  ap_eq _ _          := rfl
  flatMap_eq m _ _   := by cases m <;> rfl

theorem lift2_eq (h : α → β → γ) (m : Maybe α) (n : Maybe β) : lift2 h m n = (m.map h).ap n := by
  cases m <;> cases n <;> rfl

end Maybe

namespace Branches

def wrapper : Wrapper Branches List Unit where
  of            := of
  map           := map
  bind          := bind
  ap            := ap
  extract m _   := m.items
  flatMap m _ h := m.flatMap h

theorem lawful : wrapper.Lawful where
  of_bind a _        := congrArg mk (List.flatMap_singleton _ a)
  bind_of m          := congrArg mk (List.flatMap_singleton' m.items)
  bind_assoc _ _ _   := congrArg mk List.flatMap_assoc
  map_eq _ _         := congrArg mk List.map_eq_flatMap
  ap_eq _ _          := rfl
  flatMap_eq _ _ _   := rfl

end Branches

namespace State

def wrapper (σ : Type) : Wrapper (State σ) id σ where
  of          := of
  map         := map
  bind        := bind
  ap          := ap
  extract m s := (m.run s).1
  flatMap     := flatMap

theorem lawful (σ : Type) : (wrapper σ).Lawful where
  of_bind _ _      := rfl
  bind_of _        := rfl
  bind_assoc _ _ _ := rfl
  map_eq _ _       := rfl
  ap_eq _ _        := rfl
  flatMap_eq _ _ _ := rfl

end State

namespace Reader

def wrapper (ε : Type) : Wrapper (Reader ε) id ε where
  of      := of
  map     := map
  bind    := bind
  ap      := ap
  extract := run
  flatMap := flatMap

theorem lawful (ε : Type) : (wrapper ε).Lawful where
  of_bind _ _      := rfl
  bind_of _        := rfl
  bind_assoc _ _ _ := rfl
  map_eq _ _       := rfl
  ap_eq _ _        := rfl
  flatMap_eq _ _ _ := rfl

end Reader

namespace Action

variable {α β γ : Type}

def wrapper : Wrapper Action (· × List String) Unit where
  of            := of
  map           := map
  bind          := bind
  ap            := ap
  extract       := exec
  flatMap m _ h := m.flatMap h

variable {m n : Action α} {f : α → Action β} {past : List String}

theorem ext_run (h : ∀ past, m.run past = n.run past) : m = n :=
  congrArg mk (funext h)

theorem run_bind :
    (m.bind f).run past =
      (((f (m.run past).1).run (past ++ (m.run past).2)).1,
        (m.run past).2 ++ ((f (m.run past).1).run (past ++ (m.run past).2)).2) :=
  rfl

theorem run_of {a : α} : (of a).run past = (a, []) :=
  rfl

theorem lawful : wrapper.Lawful where
  of_bind a f := by
    refine ext_run fun past => ?_
    change ((of a).bind f).run past = _
    rw [run_bind, run_of, List.append_nil, List.nil_append]
  bind_of m := by
    refine ext_run fun past => ?_
    change (m.bind of).run past = _
    rw [run_bind, run_of, List.append_nil]
  bind_assoc m f g := by
    refine ext_run fun past => ?_
    change ((m.bind f).bind g).run past = (m.bind fun a => (f a).bind g).run past
    simp only [run_bind, List.append_assoc]
  map_eq h m := by
    refine ext_run fun past => ?_
    change _ = (m.bind fun a => of (h a)).run past
    rw [run_bind, run_of, List.append_nil]
    rfl
  ap_eq _ _          := rfl
  flatMap_eq _ _ _   := rfl

end Action

-- The wrappers are written one by one, but all of them obey the same laws, whatever is wrapped and
-- whatever functions are handed to them.
theorem wrappers_lawful :
    Maybe.wrapper.Lawful ∧ Branches.wrapper.Lawful ∧ (∀ σ, (State.wrapper σ).Lawful) ∧
      (∀ ε, (Reader.wrapper ε).Lawful) ∧ Action.wrapper.Lawful ∧
      ∀ {α β γ : Type} (h : α → β → γ) (m : Maybe α) (n : Maybe β),
        Maybe.lift2 h m n = (m.map h).ap n :=
  ⟨Maybe.lawful, Branches.lawful, State.lawful, Reader.lawful, Action.lawful, Maybe.lift2_eq⟩

end Switchboard
