namespace Switchboard

inductive Maybe (α : Type)
  | just (a : α)
  | nothing
deriving DecidableEq

namespace Maybe

variable {α β γ : Type}

def of (a : α) : Maybe α :=
  just a

-- `none` stands for the missing value here.
def ofValue [DecidableEq α] (a none : α) : Maybe α :=
  if a = none then nothing else just a

def isJust : Maybe α → Bool
  | just _ => true
  | nothing => false

def isNothing (m : Maybe α) : Bool :=
  !m.isJust

def bind (m : Maybe α) (f : α → Maybe β) : Maybe β :=
  match m with
  | just a => f a
  | nothing => nothing

def map (f : α → β) (m : Maybe α) : Maybe β :=
  m.bind fun a => just (f a)

def ap (mf : Maybe (α → β)) (m : Maybe α) : Maybe β :=
  mf.bind (m.map ·)

def flatMap (m : Maybe α) (f : α → β) : Option β :=
  match m with
  | just a => some (f a)
  | nothing => none

def getOrElse (m : Maybe α) (default : α) : α :=
  match m with
  | just a => a
  | nothing => default

def filter (p : α → Bool) (m : Maybe α) : Maybe α :=
  m.bind fun a => if p a then just a else nothing

def orElse (m other : Maybe α) : Maybe α :=
  match m with
  | just a => just a
  | nothing => other

def lift2 (f : α → β → γ) : Maybe α → Maybe β → Maybe γ
  | just a, just b => just (f a b)
  | _, _ => nothing

end Maybe

end Switchboard
