namespace Switchboard

structure Branches (α : Type) where
  items : List α

namespace Branches

variable {α β : Type}

def of (a : α) : Branches α :=
  ⟨[a]⟩

def map (f : α → β) (m : Branches α) : Branches β :=
  ⟨m.items.map f⟩

def bind (m : Branches α) (f : α → Branches β) : Branches β :=
  ⟨m.items.flatMap fun a => (f a).items⟩

-- Every function applied to every argument, the arguments running faster.
def ap (mf : Branches (α → β)) (m : Branches α) : Branches β :=
  ⟨mf.items.flatMap fun f => m.items.map f⟩

def flatMap (m : Branches α) (f : α → β) : List β :=
  (m.map f).items

end Branches

end Switchboard
