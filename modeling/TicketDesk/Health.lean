import TicketDesk.Service

/-! # Health

What the last check of each service said, and what that says of the whole backend. -/

namespace TicketDesk

/-- What is known of a service. -/
inductive Health where
  | unknown
  | ready
  | down
  deriving DecidableEq, Repr

def Health.name : Health → String
  | .unknown => "unknown"
  | .ready => "ready"
  | .down => "down"

/-- What is known of all services together. -/
inductive Overall where
  | allReady
  | hasDown
  | incomplete
  deriving DecidableEq, Repr

def Overall.name : Overall → String
  | .allReady => "ALL_READY"
  | .hasDown => "HAS_DOWN"
  | .incomplete => "PARTIAL"

/-- The health of each service. -/
structure Board where
  get : Service → Health

namespace Board

def initial : Board := ⟨fun _ => .unknown⟩

def set (b : Board) (service : Service) (health : Health) : Board :=
  ⟨fun s => if s = service then health else b.get s⟩

def toList (b : Board) : List (Service × Health) := Service.all.map fun s => (s, b.get s)

/-- All ready, one down, or neither. -/
def overall (b : Board) : Overall :=
  if b.toList.all fun entry => entry.2 == .ready then .allReady
  else if b.toList.any fun entry => entry.2 == .down then .hasDown
  else .incomplete

end Board

end TicketDesk
