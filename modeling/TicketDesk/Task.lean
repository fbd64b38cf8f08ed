import TicketDesk.Flow
import TicketDesk.Poll

/-! # Tasks

What the terminal hands to its worker. The worker does one task after the other and reports each
once. -/

namespace TicketDesk

/-- A task for the worker. -/
inductive Task where
  | action (a : Action)
  | replay (e : Entry)
  | flow (f : Flow)
  | check (service : Service)
  | sweep
  | poll (ticket : Ticket)

/-- What a task without a fault produced. -/
inductive TaskOutput where
  | data (value : Json)
  | flow (outcome : FlowOutcome)
  | health (health : Health)
  | board (board : Board)
  /-- There was no order to poll. -/
  | skipped
  /-- The poller was switched while the poll waited. -/
  | stale

/-- The end of a task. -/
structure Report where
  task : String
  outcome : Except Fault TaskOutput

namespace Task

def describe : Task → String
  | .action a => a.label
  | .replay e => "Replay " ++ e.label
  | .flow f => f.name
  | .check service => service.label ++ " /healthz"
  | .sweep => "Health Sweep"
  | .poll _ => Request.pollLabel

/-- The work of a task, begun while the poller is at a generation. -/
def work (c : Config) (p : Poller) : Task → Work (Except Fault TaskOutput)
  | .action a => (a.perform c).onSuccess fun data => .done (.ok (.data data))
  | .replay e => (e.replay.execute c).onSuccess fun data => .done (.ok (.data data))
  | .flow f => (f.run c).onSuccess fun outcome => .done (.ok (.flow outcome))
  | .check service => (service.check c).bind fun health => .done (.ok (.health health))
  | .sweep => (Board.sweep c).bind fun board => .done (.ok (.board board))
  | .poll ticket =>
    if p.isCurrent ticket then
      (pollOnce c).onSuccess fun
        | some data => .done (.ok (.data data))
        | none => .done (.ok .skipped)
    else .done (.ok .stale)

end Task

namespace Report

def isOk (r : Report) : Bool := r.outcome.isOk

def summary (r : Report) : String :=
  match r.outcome with
  | .ok (.flow (.aborted after)) => r.task ++ " stopped after " ++ after
  | .ok (.health health) => r.task ++ ": " ++ health.name
  | .ok (.board board) => r.task ++ ": " ++ board.overall.name
  | .ok .skipped => r.task ++ " skipped: no order id"
  | .ok .stale => r.task ++ " dropped: polling stopped"
  | .ok _ => r.task ++ " ok"
  | .error e => r.task ++ " failed: " ++ e.message

end Report

/-- The worker with its queue of tasks and its reports that nobody has taken yet. -/
structure Runner where
  queue : List Task := []
  running : Option (String × Work (Except Fault TaskOutput)) := none
  reports : List Report := []
  /-- How many tasks were handed in and not yet taken back as reports. -/
  pending : Nat := 0

namespace Runner

def submit (r : Runner) (t : Task) : Runner :=
  { r with queue := r.queue ++ [t], pending := r.pending + 1 }

/-- Lets the idle worker begin the oldest task; its ticket is checked now. -/
def begin (c : Config) (p : Poller) (r : Runner) : Runner :=
  match r.running, r.queue with
  | none, t :: rest => { r with queue := rest, running := some (t.describe, t.work c p) }
  | _, _ => r

/-- Lets the worker report a task that is done. -/
def finish (r : Runner) : Runner :=
  match r.running with
  | some (name, .done outcome) => { r with running := none, reports := r.reports ++ [⟨name, outcome⟩] }
  | _ => r

/-- Lets the worker begin its oldest task, if it is idle, and go on to the next request. -/
def advance {σ : Type} (w : World σ) (c : Config) (p : Poller) (r : Runner) (s : Store) (x : σ) :
    Runner × Store × σ :=
  let r := r.begin c p
  match r.running with
  | some (name, work) =>
    let (work, s, x) := work.toSend w s x
    ({ r with running := some (name, work) }, s, x)
  | none => (r, s, x)

/-- Lets the worker do its task, or else its oldest one, to the end and report it. -/
def complete {σ : Type} (w : World σ) (c : Config) (p : Poller) (r : Runner) (s : Store) (x : σ) :
    Runner × Store × σ :=
  let r := r.begin c p
  match r.running with
  | some (name, work) =>
    let (outcome, s, x) := work.run w s x
    (({ r with running := some (name, .done outcome) } : Runner).finish, s, x)
  | none => (r, s, x)

def drain (r : Runner) : List Report × Runner :=
  (r.reports, { r with reports := [], pending := r.pending - r.reports.length })

def receive? (r : Runner) : Option (Report × Runner) :=
  match r.reports with
  | report :: rest => some (report, { r with reports := rest, pending := r.pending - 1 })
  | [] => none

/-- Whether a task was handed in and not yet taken back. -/
def isBusy (r : Runner) : Bool := 0 < r.pending

end Runner

end TicketDesk
