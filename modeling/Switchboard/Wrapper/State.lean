namespace Switchboard

structure State (σ α : Type) where
  run : σ → α × σ

namespace State

variable {σ α β : Type}

def of (a : α) : State σ α :=
  ⟨fun s => (a, s)⟩

def map (f : α → β) (m : State σ α) : State σ β :=
  ⟨fun s =>
    let (a, s) := m.run s
    (f a, s)⟩

def bind (m : State σ α) (f : α → State σ β) : State σ β :=
  ⟨fun s =>
    let (a, s) := m.run s
    (f a).run s⟩

def ap (mf : State σ (α → β)) (m : State σ α) : State σ β :=
  ⟨fun s =>
    let (f, s) := mf.run s
    let (a, s) := m.run s
    (f a, s)⟩

def flatMap (m : State σ α) (initial : σ) (f : α → β) : β :=
  f (m.run initial).1

def get : State σ σ :=
  ⟨fun s => (s, s)⟩

def put (s : σ) : State σ Unit :=
  ⟨fun _ => ((), s)⟩

end State

end Switchboard
