import TicketDesk.Task
import TicketDesk.Terminal.Binding
import TicketDesk.Terminal.Front

/-! # The terminal console

The console joins the front, the task runner and the poller over one store. A key changes the front,
edits the store, hands in a task or switches the poller; it never waits for work. A tick takes the
reports that are there and hands in a poll when one is due. -/

namespace TicketDesk.Terminal

/-- The terminal console without its store. -/
structure Console where
  front : Front
  runner : Runner := {}
  poller : Poller
  /-- Whether a poll was handed in and not yet taken back. -/
  pollInFlight : Bool := false

/-- A console together with the store it works on. -/
structure Desk where
  console : Console
  store : Store

namespace Desk

/-- A console just started on a store; whoever is logged in goes on. -/
def start (s : Store) (pollIntervalMs : Nat) : Desk :=
  let front : Front := match s.state.session with
    | some session => { mode := .dashboard, status := "Welcome back, " ++ session.username }
    | none => {}
  ⟨{ front := front, poller := { interval := pollIntervalMs } }, s⟩

def onFront (d : Desk) (f : Front → Front) : Desk :=
  { d with console := { d.console with front := f d.console.front } }

def say (d : Desk) (level : Level) (message : String) : Desk := d.onFront (·.say level message)

def update (d : Desk) (u : Update) : Desk := { d with store := d.store.update u }

def historyLength (d : Desk) : Nat := d.store.state.history.entries.length

def submit (d : Desk) (t : Task) : Desk :=
  let runner := d.console.runner.submit t
  let front := (d.console.front.say .info (t.describe ++ "…"))
  { d with console := { d.console with runner := runner, front := { front with pendingTasks := runner.pending } } }

def setPolling (d : Desk) (on : Bool) (now : Int) : Desk :=
  let poller := if on then d.console.poller.enable now else d.console.poller.disable
  let front := { d.console.front with polling := poller.isEnabled }
  { d with console := { d.console with poller := poller, front := front } }

def togglePolling (d : Desk) (now : Int) : Desk :=
  let on := !d.console.poller.isEnabled
  (d.setPolling on now).say .info
    (if on then "Polling every " ++ String.ofList (Text.showNat (d.console.poller.interval / 1000)) ++ "s"
     else "Polling stopped")

/-! ### Ticks -/

def isStale (r : Report) : Bool :=
  match r.outcome with
  | .ok .stale => true
  | _ => false

/-- Takes in a report. A dropped poll is not worth a word. -/
def applyReport (d : Desk) (r : Report) : Desk :=
  let d : Desk :=
    if r.task = Request.pollLabel then { d with console := { d.console with pollInFlight := false } } else d
  if isStale r then d
  else (d.say (if r.isOk then .success else .error) r.summary).onFront (·.clampHistory d.historyLength)

def takeReports (d : Desk) : Desk :=
  let (reports, runner) := d.console.runner.drain
  let d := reports.foldl applyReport { d with console := { d.console with runner := runner } }
  d.onFront fun f => { f with pendingTasks := runner.pending }

/-- Switches the poller off away from the booking view. -/
def leavePolling (d : Desk) (now : Int) : Desk :=
  if d.console.front.effectiveMode ≠ .booking ∧ d.console.poller.isEnabled then d.setPolling false now else d

/-- Hands in a poll when one is due, unless the one before is still out. -/
def firePoll (d : Desk) (now : Int) : Desk :=
  let (due, poller) := d.console.poller.due now
  let d : Desk := { d with console := { d.console with poller := poller } }
  if due ∧ ¬ d.console.pollInFlight then
    { d with console := { d.console with pollInFlight := true } }.submit (.poll poller.ticket)
  else d

def tick (d : Desk) (now : Int) : Desk :=
  (d.takeReports.leavePolling now).firePoll now

/-! ### Keys -/

def submitLogin (d : Desk) (m : Moment) : Desk :=
  match Session.login d.console.front.login.username d.console.front.login.password m.millis with
  | .ok session =>
    ((d.update (.session (some session))).onFront (·.switchTo .dashboard)).say .success
      ("Logged in as " ++ session.username)
  | .error e => d.say .error e.message

/-- Logs out; polling ends with the session. -/
def logout (d : Desk) (now : Int) : Desk :=
  (((d.setPolling false now).update (.session none)).onFront (·.switchTo .login)).say .info "Logged out"

/-- Writes the edited text into the drafts; a text that is refused stays in the editor. -/
def commitEdit (d : Desk) : Desk :=
  match d.console.front.editor with
  | none => d.onFront (·.endEdit)
  | some editor =>
    let u : Update := .drafts (.set [(editor.field, editor.buffer)])
    match u.reply d.store.state with
    | .ok _ => ((d.update u).onFront (·.endEdit)).say .success (editor.field.name ++ " updated")
    | .error e => (d.update u).say .error e.message

def activate (d : Desk) (now : Int) : Desk :=
  match d.console.front.selectedRow? with
  | none => d
  | some (.field f) => d.onFront (·.beginEdit f (d.store.state.drafts.get f))
  | some (.run a) => d.submit (.action a)
  | some (.runFlow f) => d.submit (.flow f)
  | some .useCurrentOrderId =>
    (d.update (.drafts .useCurrentOrderId)).say .info "Query order id set from current order"
  | some .togglePolling => d.togglePolling now
  | some .healthSweep => d.submit .sweep
  | some (.healthCheck service) => d.submit (.check service)

def replaySelected (d : Desk) : Desk :=
  match d.store.state.history.entries[d.console.front.historySelection]? with
  | some e => d.submit (.replay e)
  | none => d.say .info "History is empty"

def clearHistory (d : Desk) : Desk :=
  ((d.update .clearHistory).onFront (·.clampHistory 0)).say .info "History cleared"

def loginKey (d : Desk) (e : KeyEvent) (c : Option Command) (m : Moment) : Desk × Bool :=
  match c with
  | some .quit => (d, true)
  | some .switchField => (d.onFront fun f => { f with login := f.login.toggleFocus }, false)
  | some .submit => (d.submitLogin m, false)
  | _ => (d.onFront fun f => { f with login := f.login.editFocused e.edit }, false)

def editKey (d : Desk) (e : KeyEvent) (c : Option Command) : Desk :=
  match c with
  | some .cancel => (d.onFront (·.endEdit)).say .info "Edit cancelled"
  | some .confirm => d.commitEdit
  | _ => d.onFront fun f => { f with editor := f.editor.map fun x => { x with buffer := e.edit x.buffer } }

def tabOfKey? : KeyCode → Option Mode
  | .char c => if c.isDigit then Mode.ofTabNumber? (c.toNat - 48) else none
  | _ => none

def viewCommand (d : Desk) (c : Command) (now : Int) : Desk × Bool :=
  match c with
  | .navigateUp => (d.onFront (·.moveSelection false d.historyLength), false)
  | .navigateDown => (d.onFront (·.moveSelection true d.historyLength), false)
  | .nextTab => (d.onFront (·.nextTab), false)
  | .previousTab => (d.onFront (·.previousTab), false)
  | .select => (d.activate now, false)
  | .togglePolling => (d.togglePolling now, false)
  | .replay => (d.replaySelected, false)
  | .clearHistory => (d.clearHistory, false)
  | .logout => (d.logout now, false)
  | .help => (d.onFront fun f => { f with helpVisible := true }, false)
  | .quit => (d, true)
  | .switchField => (d, false)
  | .submit => (d, false)
  | .confirm => (d, false)
  | .cancel => (d, false)

/-- A key in a tab. A digit of a tab goes there. -/
def viewKey (d : Desk) (e : KeyEvent) (c : Option Command) (now : Int) : Desk × Bool :=
  match tabOfKey? e.code with
  | some tab => (d.onFront (·.switchTo tab), false)
  | none =>
    match c with
    | some c => d.viewCommand c now
    | none => (d, false)

def isInterrupt (e : KeyEvent) : Bool := e.modifiers.ctrl && e.code == .char 'c'

/-- An event of the keyboard at a time; the second part says whether the user quits. -/
def handleKey (d : Desk) (e : KeyEvent) (now : Int) (m : Moment) : Desk × Bool :=
  if e.kind ≠ .press then (d, false)
  else if isInterrupt e then (d, true)
  else if d.console.front.helpVisible then
    if e.code = .char '?' ∨ e.code = .esc then (d.onFront fun f => { f with helpVisible := false }, false)
    else (d, false)
  else
    let mode := d.console.front.mode
    let c := Binding.command? mode e
    match mode with
    | .login => d.loginKey e c m
    | .editField => (d.editKey e c, false)
    | _ => d.viewKey e c now

/-! ### The worker -/

/-- Lets the worker go on to its next request. -/
def advance {σ : Type} (w : World σ) (c : Config) (d : Desk) (x : σ) : Desk × σ :=
  let (runner, store, x) := d.console.runner.advance w c d.console.poller d.store x
  (⟨{ d.console with runner := runner }, store⟩, x)

def complete {σ : Type} (w : World σ) (c : Config) (d : Desk) (x : σ) : Desk × σ :=
  let (runner, store, x) := d.console.runner.complete w c d.console.poller d.store x
  (⟨{ d.console with runner := runner }, store⟩, x)

/-- Lets the worker finish so many tasks, with a tick at a time after each. -/
def settle {σ : Type} (w : World σ) (c : Config) (now : Int) : Nat → Desk → σ → Desk × σ
  | 0, d, x => (d, x)
  | n + 1, d, x =>
    let (d, x) := d.complete w c x
    settle w c now n (d.tick now) x

end Desk

end TicketDesk.Terminal
