namespace Switchboard

-- From what has been logged before, an action yields a value and the labels that it adds.
structure Action (α : Type) where
  run : List String → α × List String

namespace Action

variable {α β : Type}

def of (a : α) : Action α :=
  ⟨fun _ => (a, [])⟩

def emit (label : String) (a : α) : Action α :=
  ⟨fun _ => (a, [label])⟩

def map (f : α → β) (m : Action α) : Action β :=
  ⟨fun past =>
    let (a, log) := m.run past
    (f a, log)⟩

def bind (m : Action α) (f : α → Action β) : Action β :=
  ⟨fun past =>
    let (a, log) := m.run past
    let (b, more) := (f a).run (past ++ log)
    (b, log ++ more)⟩

def ap (mf : Action (α → β)) (m : Action α) : Action β :=
  ⟨fun past =>
    let (f, log) := mf.run past
    let (a, more) := m.run (past ++ log)
    (f a, log ++ more)⟩

-- Nothing is run before the execution is asked for. It starts with an empty log.
def exec (m : Action α) (_ : Unit) : α × List String :=
  m.run []

def flatMap (m : Action α) (f : α → β) : β × List String :=
  let (a, log) := m.exec ()
  (f a, log)

end Action

end Switchboard
