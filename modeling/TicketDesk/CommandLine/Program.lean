import TicketDesk.CommandLine.Command
import TicketDesk.Poll
import TicketDesk.Text.Pad

/-! # The commands at work

Each command but the terminal is work that prints what it does. It ends well or with a complaint, which
is printed after everything else. A request that was answered is printed whether it succeeded or not. -/

namespace TicketDesk.CommandLine

abbrev Job := Work (Except String Unit)

namespace Job

def ok : Job := Work.done (.ok ())

def fail (complaint : String) : Job := Work.done (.error complaint)

/-- Ends well after printing lines. -/
def say : List String → Job
  | [] => ok
  | text :: rest => Work.say (.out text) (say rest)

/-- Goes on when the work so far ended well. -/
def andThen (first next : Job) : Job := first.bind fun
  | .ok () => next
  | .error complaint => fail complaint

end Job

/-! ### Configuration -/

/-- The configuration in the file that an invocation names, given the content of that file. -/
def Invocation.loaded (i : Invocation) (content : Except String String) : Except String Config :=
  match i.config with
  | none => .ok .initial
  | some path => (Config.load path content).mapError fun fault => fault.message ++ ": " ++ fault.cause

/-- The configuration of an invocation. Its own state directory counts before the one in the file. -/
def Invocation.configuration (i : Invocation) (content : Except String String) : Except String Config :=
  (i.loaded content).bind fun c =>
    let c : Config := { c with stateDir := i.stateDir <|> c.stateDir }
    match c.defect? with
    | none => .ok c
    | some defect => .error ("Invalid configuration: " ++ defect.message)

/-! ### Results -/

/-- The sign before a result. -/
def resultSign : Option UInt16 → String
  | some status => if isSuccess status then "✓" else "✗"
  | none => "·"

def resultLines (r : LastResult) : List String :=
  let status := match r.status with
    | some n => "HTTP " ++ String.ofList (Text.showNat n.toNat)
    | none => "-"
  let duration := match r.durationMs with
    | some n => String.ofList (Text.showNat n.toNat) ++ " ms"
    | none => "-"
  [resultSign r.status ++ " " ++ r.title ++ "  " ++ status ++ "  " ++ duration, r.data.pretty]

def sayResult : Job := .look fun s => Job.say (resultLines s.result)

def wasAnswered {α : Type} : Except Fault α → Bool
  | .ok _ => true
  | .error e => e.status?.isSome

/-- Prints the answer of an operation, if there was one, and goes on with its value. -/
def report {α : Type} (w : Work (Except Fault α)) (next : α → Job) : Job := w.bind fun outcome =>
  let rest : Job := match outcome with
    | .ok a => next a
    | .error e => Job.fail e.message
  if wasAnswered outcome then sayResult.andThen rest else rest

/-! ### Jobs -/

/-- Goes on when an update of the drafts is not refused; it is committed either way. -/
def editDrafts (edit : DraftEdit) (next : Job) : Job := .look fun s =>
  .change [.drafts edit] (match (edit.apply s.drafts).2 with
    | .ok () => next
    | .error e => Job.fail e.message)

def act (c : Config) (a : Action) (edits : List (Field × String)) : Job :=
  let perform := report (a.perform c) fun _ =>
    if a = .createOrder then
      .look fun s => Job.say (if s.drafts.orderId = "" then [] else ["Draft order id: " ++ s.drafts.orderId])
    else Job.ok
  if edits.isEmpty then perform else editDrafts (.set edits) perform

/-- Makes a request of one's own. -/
def exec (c : Config) (service : Service) (method : Method) (path : String) (body label : Option String) : Job :=
  if path.toList.head? ≠ some '/' then Job.fail ("Path must start with '/', got '" ++ path ++ "'")
  else
    let request (body : Option Json) : Job :=
      report (({ label := label.getD (method.name ++ " " ++ path), call := ⟨service, method, path, body⟩ } :
        Request).execute c) fun _ => Job.ok
    match body with
    | none => request none
    | some text =>
      match Json.read? text with
      | some value => request (some value)
      | none => Job.fail "--body is not valid JSON: not a JSON value"

def flow (c : Config) (f : Flow) : Job := report (f.run c) fun
  | .completed steps orderId =>
    let order := match orderId with
      | some id => ", order " ++ id
      | none => ""
    Job.say ["✓ " ++ f.name ++ " completed (" ++ String.ofList (Text.showNat steps) ++ " steps)" ++ order]
  | .aborted after => Job.say ["! " ++ f.name ++ " stopped after " ++ after ++ ": response had no OrderID"]

def healthSign : Health → String
  | .ready => "✓"
  | .down => "✗"
  | .unknown => "·"

def checkOne (c : Config) (service : Service) : Job := (service.check c).bind fun health =>
  (Job.say [healthSign health ++ " " ++ service.label ++ ": " ++ health.name]).andThen
    (if health = .down then Job.fail (service.label ++ " is down") else Job.ok)

def boardLines (b : Board) : List String :=
  b.toList.map (fun e => healthSign e.2 ++ " " ++ Text.padRight 18 e.1.label ++ " " ++ e.2.name)
    ++ ["Overall: " ++ b.overall.name]

def checkEach (c : Config) : Job := (Board.sweep c).bind fun board =>
  (Job.say (boardLines board)).andThen
    (if board.toList.any fun e => e.2 == .down then Job.fail ("Overall health is " ++ board.overall.name)
     else Job.ok)

/-- An entry of the history in a list, with its position. -/
def entryLine (position : Nat) (e : Entry) : String :=
  Text.padLeft 3 (String.ofList (Text.showNat position)) ++ ". " ++ (if e.ok then "✓" else "✗") ++ " "
    ++ Text.padRight 28 e.label ++ " " ++ e.summary ++ "  [" ++ e.id ++ "]"

def listHistory (limit : Option Nat) : Job := .look fun s =>
  let entries := s.history.entries
  let listed := match limit with
    | some n => entries.take n
    | none => entries
  Job.say ((if entries.isEmpty then ["History is empty"] else [])
    ++ (listed.zipIdx 1).map fun (e, position) => entryLine position e)

def withEntry (reference : String) (next : Entry → Job) : Job := .look fun s =>
  match s.history.find? reference with
  | some e => next e
  | none => Job.fail ("No history entry '" ++ reference ++ "'")

def showDrafts : Job := .look fun s =>
  Job.say (Field.all.map fun f => Text.padRight 16 f.name ++ " " ++ s.drafts.get f)

/-! ### Watching -/

/-- Polls once and prints the answer; a fault is a complaint and does not end the watch. -/
def watchPoll (c : Config) : Work Unit := (pollOnce c).bind fun outcome =>
  let complain : Work Unit := match outcome with
    | .ok _ => .done ()
    | .error e => .say (.err ("✗ " ++ e.message)) (.done ())
  if wasAnswered outcome then sayResult.bind fun _ => complain else complain

/-- A watch under way: how many polls are left, and the schedule. -/
structure Watch where
  left : Nat
  poller : Poller

namespace Watch

/-- The time between two looks at the schedule in milliseconds. -/
def pause : Nat := 100

/-- A watch that begins at a time, with an interval in milliseconds. -/
def start (polls interval : Nat) (now : Int) : Watch :=
  ⟨polls, ({ interval := interval } : Poller).enable now⟩

/-- Looks at the schedule, polls if a poll is due, and pauses. There is no watch after it if the time of the next poll
    is beyond the end of the clock: the schedule is set before the poll is made. -/
def turn (c : Config) (v : Watch) : Work (Option Watch) := .wait 0 fun now =>
  match v.poller.due now with
  | (true, p) =>
    if p.fits now then (watchPoll c).bind fun () => .wait pause fun _ => .done (some ⟨v.left - 1, p⟩)
    else .done none
  | (false, p) => .wait pause fun _ => .done (some ⟨v.left, p⟩)

/-- Takes turns while a poll is left, but so many turns at most. -/
def turns (c : Config) : Nat → Watch → Work (Option Watch)
  | 0, v => .done (some v)
  | n + 1, v =>
    if v.left = 0 then .done (some v)
    else (v.turn c).bind fun
      | some u => turns c n u
      | none => .done none

/-- As many turns as a watch needs whose clock goes on by a pause in each of them. -/
def enough (v : Watch) : Nat := v.left * (v.poller.interval / pause + 2)

end Watch

/-- More polls than anyone waits for: what a watch without a count does. -/
def unlimited : Nat := UInt64.size

def watchLine (orderId : String) (interval : Nat) : String :=
  "Polling order " ++ orderId ++ " every " ++ String.ofList (Text.showNat (interval / 1000)) ++ "s (Ctrl-C to stop)"

/-- What is left to say when a schedule would be set to a time beyond the end of the clock. -/
def overrun : String := "overflow when adding duration to instant"

/-- Polls the current order so many times, with an interval in milliseconds. It breaks off where the time of the next
    poll is beyond the end of the clock, be it at the beginning. -/
def watch (c : Config) (interval : Nat) (count : Option Nat) : Job := .look fun s =>
  if s.drafts.orderId = "" then
    Job.fail "No order id to watch; create an order or run \x60draft set order_id <ID>\x60"
  else
    .say (.out (watchLine s.drafts.orderId interval)) (.wait 0 fun now =>
      let v := Watch.start (count.getD unlimited) interval now
      (if v.poller.fits now then v.turns c v.enough else .done none).bind fun
        | some _ => Job.ok
        | none => Job.fail overrun)

/-! ### Commands -/

def login (username password : String) : Job := .moment fun m =>
  match Session.login username password m.millis with
  | .error e => Job.fail e.message
  | .ok session => .say (.out ("✓ Logged in as " ++ session.username)) (.change [.session (some session)] Job.ok)

def withSession (next : Session → Job) : Job := .look fun s =>
  match Session.require s.session with
  | .ok session => next session
  | .error e => Job.fail e.message

def Command.jobInSession (c : Config) : Command → Job
  | .exec service method path body label => CommandLine.exec c service method path body label
  | .act action edits => CommandLine.act c action edits
  | .queryOrder orderId useCurrent =>
    let query := CommandLine.act c .queryOrderView (orderId.toList.map fun id => (.queryOrderId, id))
    if useCurrent then .change [.drafts .useCurrentOrderId] query else query
  | .flow f => CommandLine.flow c f
  | .health (some service) => checkOne c service
  | .health none => checkEach c
  | .listHistory limit => CommandLine.listHistory limit
  | .showEntry reference => withEntry reference fun e => Job.say [e.toJson.pretty]
  | .clearHistory => .change [.clearHistory] (Job.say ["✓ History cleared"])
  | .replayEntry reference => withEntry reference fun e => report (e.replay.execute c) fun _ => Job.ok
  | .showDrafts => CommandLine.showDrafts
  | .setDraft field value => editDrafts (.set [(field, value)]) (Job.say ["✓ " ++ field.name ++ " = " ++ value])
  | .watch count => CommandLine.watch c (c.pollInterval.toNat * 1000) count
  | .tui => Job.ok
  | .login _ _ => Job.ok
  | .logout => Job.ok
  | .whoami => Job.ok

/-- The job of a command. The terminal needs a screen, which a job does not have. -/
def Command.job (c : Config) : Command → Job
  | .tui => Job.fail "Failed to enable raw mode: no terminal"
  | .login username password => CommandLine.login username password
  | .logout => .change [.session none] (Job.say ["✓ Logged out"])
  | .whoami => withSession fun session =>
      Job.say [session.username ++ " (token " ++ session.token ++ ")"]
  | command => withSession fun _ => command.jobInSession c

/-- What an invocation does: a job in the files of a directory, or in memory only. -/
structure Errand where
  directory : Option String
  /-- The time limit of a request in seconds. -/
  timeout : Option UInt64
  job : Job

/-- The errand of an invocation, given the home directory and the content of the configuration file.
    Without a command it is the terminal. -/
def Invocation.errand (i : Invocation) (home : Option String) (content : Except String String) :
    Except String Errand :=
  (i.configuration content).map fun c =>
    { directory := if i.ephemeral then none else some (c.resolvedStateDir home)
      timeout := c.requestTimeout?
      job := (i.command.getD .tui).job c }

/-- The line of a complaint. To break off is none of the program's own complaints, and stands as it is. -/
def complaintLine (complaint : String) : String := if complaint = overrun then complaint else "✗ " ++ complaint

/-- The exit code after a complaint. -/
def exitCode (complaint : String) : Nat := if complaint = overrun then 101 else 1

end TicketDesk.CommandLine
