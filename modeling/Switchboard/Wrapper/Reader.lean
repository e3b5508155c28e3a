namespace Switchboard

structure Reader (ε α : Type) where
  run : ε → α

namespace Reader

variable {ε α β : Type}

def of (a : α) : Reader ε α :=
  ⟨fun _ => a⟩

def map (f : α → β) (m : Reader ε α) : Reader ε β :=
  ⟨fun e => f (m.run e)⟩

def bind (m : Reader ε α) (f : α → Reader ε β) : Reader ε β :=
  ⟨fun e => (f (m.run e)).run e⟩

def ap (mf : Reader ε (α → β)) (m : Reader ε α) : Reader ε β :=
  ⟨fun e => mf.run e (m.run e)⟩

def flatMap (m : Reader ε α) (env : ε) (f : α → β) : β :=
  f (m.run env)

def ask : Reader ε ε :=
  ⟨id⟩

end Reader

end Switchboard
