import TicketDesk.Execution

/-! # Polling

A poller is a schedule: while it is enabled it is due once every interval. Switching it on or off
starts a new generation, and a ticket of an older generation is stale: a poll that waited with such a
ticket is dropped. Times are milliseconds on one clock. A schedule has them exact; a clock ends somewhere, and the
program breaks off where a schedule would be set to a time beyond its end. -/

namespace TicketDesk

/-- A schedule of polls. -/
structure Poller where
  interval : Nat
  nextDue : Option Int := none
  generation : UInt64 := 0
  deriving DecidableEq

/-- Leave for one poll. -/
structure Ticket where
  issued : UInt64
  deriving DecidableEq, Repr

/-- The last time that a clock can show: its seconds are a signed word of 64 bits. -/
def lastInstant : Int := 0x7FFFFFFFFFFFFFFF * 1000 + 999

namespace Poller

def isEnabled (p : Poller) : Bool := p.nextDue.isSome

/-- Whether a clock can show the time one interval from now. Who sets a schedule to a time that it cannot show
    breaks off: that is for the caller to see to. -/
def fits (p : Poller) (now : Int) : Bool := now + p.interval ≤ lastInstant

/-- Switches the poller on; the first poll is due after one interval, if that is a time (`fits`). -/
def enable (p : Poller) (now : Int) : Poller :=
  { p with nextDue := some (now + p.interval), generation := p.generation + 1 }

def disable (p : Poller) : Poller :=
  { p with nextDue := none, generation := p.generation + 1 }

def toggle (p : Poller) (now : Int) : Poller :=
  if p.isEnabled then p.disable else p.enable now

def ticket (p : Poller) : Ticket := ⟨p.generation⟩

/-- Whether the poller was not switched since a ticket was given out. -/
def isCurrent (p : Poller) (t : Ticket) : Bool := p.generation == t.issued

/-- Whether a poll is due, and the poller with the next one an interval away if so, and if that is a time (`fits`). -/
def due (p : Poller) (now : Int) : Bool × Poller :=
  match p.nextDue with
  | some due => if due ≤ now then (true, { p with nextDue := some (now + p.interval) }) else (false, p)
  | none => (false, p)

end Poller

/-- Polls the current order once; without an order there is nothing to poll. -/
def pollOnce (c : Config) : Work (Except Fault (Option Json)) :=
  .look fun s =>
    match Request.poll? s.drafts.orderId with
    | some request => (request.execute c).onSuccess fun data => .done (.ok (some data))
    | none => .done (.ok none)

end TicketDesk
