import TicketDesk.Work

/-! # Execution

A request is sent once. Without an answer nothing is kept. With an answer the result and then the
history are committed before anything is made of it, so the entry of a request is in the history
whether the request succeeds or not. -/

namespace TicketDesk

def LastResult.ofAnswer (label : String) (a : Answer) : LastResult :=
  ⟨label, a.data, some a.status, some a.durationMs⟩

/-- What an answer to a request leads to once it is recorded: a status other than 2xx is a fault, and
    the hook of the request is applied to the data of a success. -/
def Request.conclude (r : Request) (a : Answer) : Work (Except Fault Json) :=
  if isSuccess a.status then
    match r.hook with
    | some hook => .change [.drafts (.capture hook a.data)] (.done (.ok a.data))
    | none => .done (.ok a.data)
  else .done (.error (.http a.status (renderBody a.data)))

def Request.settle (r : Request) (a : Answer) : Work (Except Fault Json) :=
  .moment fun m =>
    .change [.result (.ofAnswer r.label a), .record (.record r.label r.call a m)] (r.conclude a)

def Request.execute (c : Config) (r : Request) : Work (Except Fault Json) :=
  match c.url r.call with
  | .error e => .done (.error e)
  | .ok url =>
    .send ⟨r.call.method, url, r.call.sentBody⟩ fun
      | .unreachable detail => .done (.error (.network detail))
      | .answer a => r.settle a

def Action.perform (c : Config) (a : Action) : Work (Except Fault Json) :=
  .look fun s => (a.request s.drafts).execute c

/-- Checks a service: it is ready when `/healthz` succeeds, and down otherwise. -/
def Service.check (c : Config) (service : Service) : Work Health :=
  ((Action.healthz service).perform c).bind fun outcome =>
    let health := match outcome with
      | .ok _ => Health.ready
      | .error _ => Health.down
    .change [.health service health] (.done health)

/-- Checks services in turn and notes them on a board. -/
def Board.checkAll (c : Config) : List Service → Board → Work Board
  | [], board => .done board
  | service :: rest, board =>
    (service.check c).bind fun health => checkAll c rest (board.set service health)

/-- Checks every service in turn; one that is down does not stop the rest. -/
def Board.sweep (c : Config) : Work Board := checkAll c Service.all .initial

end TicketDesk
