import Switchboard.Pattern.Parse
import Switchboard.Value.Basic

namespace Switchboard

structure Route (α : Type) where
  key        : String
  pattern    : Pattern
  handler    : α
  pattern_eq : pattern = Pattern.ofString key

namespace Route

variable {α : Type}

def make (key : String) (handler : α) : Route α :=
  ⟨key, .ofString key, handler, rfl⟩

def isFallback (r : Route α) : Bool :=
  r.pattern.isWildcard

end Route

structure Routes (α : Type) where
  routes   : List (Route α)
  distinct : (routes.map Route.key).Nodup

inductive Choice (α : Type)
  | route (r : Route α) (args : List Value)
  | unanswered

namespace Choice

variable {α β : Type}

def answer (c : Choice α) (run : Route α → List Value → β) (otherwise : β) : β :=
  match c with
  | route r args => run r args
  | unanswered => otherwise

end Choice

namespace Routes

variable {α : Type}

def empty : Routes α :=
  ⟨[], List.nodup_nil⟩

def put (r : Route α) : List (Route α) → List (Route α)
  | [] => [r]
  | q :: qs => if q.key = r.key then r :: qs else q :: put r qs

theorem mem_keys_put {r : Route α} {qs : List (Route α)} {k : String} :
    k ∈ (put r qs).map Route.key ↔ k = r.key ∨ k ∈ qs.map Route.key := by
  induction qs <;> grind [put]

theorem nodup_keys_put {r : Route α} {qs : List (Route α)} (h : (qs.map Route.key).Nodup) :
    ((put r qs).map Route.key).Nodup := by
  induction qs with
  | nil => simp [put]
  | cons q qs ih =>
    have hm : q.key ∈ (put r qs).map Route.key ↔ q.key = r.key ∨ q.key ∈ qs.map Route.key :=
      mem_keys_put
    grind [put]

def insert (rs : Routes α) (key : String) (handler : α) : Routes α :=
  ⟨put (.make key handler) rs.routes, nodup_keys_put rs.distinct⟩

def ofList (entries : List (String × α)) : Routes α :=
  entries.foldl (fun rs e => rs.insert e.1 e.2) empty

def size (rs : Routes α) : Nat :=
  rs.routes.length

def keys (rs : Routes α) : List String :=
  rs.routes.map Route.key

def get? (rs : Routes α) (key : String) : Option (Route α) :=
  rs.routes.find? (·.key == key)

def pattern? (rs : Routes α) (key : String) : Option Pattern :=
  (rs.get? key).map Route.pattern

-- The routes that compete. Those whose pattern is the wildcard only catch what falls through.
def competing (rs : Routes α) : List (Route α) :=
  rs.routes.filter (!·.isFallback)

-- The key `_` itself goes before keys that are it but for blanks.
def fallback? (rs : Routes α) : Option (Route α) :=
  (rs.get? "_").or (rs.routes.find? Route.isFallback)

def fallback (rs : Routes α) : Choice α :=
  match rs.fallback? with
  | some r => .route r []
  | none => .unanswered

def invoke (rs : Routes α) (key : String) (args : List Value) : Choice α :=
  match rs.get? key with
  | some r => .route r args
  | none => rs.fallback

end Routes

end Switchboard
