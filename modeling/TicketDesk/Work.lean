import TicketDesk.Config
import TicketDesk.Store

/-! # Work

Background work is a program that reads the state, updates it, sends requests, asks for the time, waits
for a while and prints lines, one thing at a time. Between two of these anything else may happen to the store, so a
value that the work keeps is as old as the step that read it. `Work.step` does one step, `Work.toSend`
all steps up to the next request, and `Work.run` all there are. -/

namespace TicketDesk

/-- A request as it goes out. -/
structure Wire where
  method : Method
  url : String
  body : Option String
  deriving DecidableEq

/-- What comes of a request. -/
inductive Reply where
  | answer (a : Answer)
  | unreachable (detail : String)
  deriving DecidableEq

/-- A line of output. -/
inductive Line where
  | out (text : String)
  | err (text : String)
  deriving DecidableEq

/-- A program with a result. -/
inductive Work (α : Type) where
  | done (value : α)
  | look (next : State → Work α)
  | change (updates : List Update) (next : Work α)
  | send (wire : Wire) (next : Reply → Work α)
  | moment (next : Moment → Work α)
  | say (line : Line) (next : Work α)
  /-- Waits so many milliseconds at least, and goes on with what a steady clock then shows. -/
  | wait (millis : Nat) (next : Int → Work α)

namespace Work

def bind {α β : Type} (f : α → Work β) : Work α → Work β
  | .done a => f a
  | .look next => .look fun s => (next s).bind f
  | .change us next => .change us (next.bind f)
  | .send wire next => .send wire fun r => (next r).bind f
  | .moment next => .moment fun m => (next m).bind f
  | .say line next => .say line (next.bind f)
  | .wait millis next => .wait millis fun now => (next now).bind f

/-- Goes on with the result of a program that succeeds; a fault ends it. -/
def onSuccess {α β : Type} (w : Work (Except Fault α)) (f : α → Work (Except Fault β)) : Work (Except Fault β) :=
  w.bind fun
    | .ok a => f a
    | .error e => .done (.error e)

end Work

/-- What lies outside the console: who answers requests, the clock and the terminal. -/
structure World (σ : Type) where
  send : Wire → σ → Reply × σ
  moment : σ → Moment × σ
  say : Line → σ → σ
  wait : Nat → σ → Int × σ

namespace Work

def run {σ α : Type} (w : World σ) : Work α → Store → σ → α × Store × σ
  | .done a, s, x => (a, s, x)
  | .look next, s, x => (next s.state).run w s x
  | .change us next, s, x => next.run w (s.updateAll us) x
  | .send wire next, s, x =>
    let r := w.send wire x
    (next r.1).run w s r.2
  | .moment next, s, x =>
    let m := w.moment x
    (next m.1).run w s m.2
  | .say line next, s, x => next.run w s (w.say line x)
  | .wait millis next, s, x =>
    let t := w.wait millis x
    (next t.1).run w s t.2

/-- Does a program up to its next request or its end. -/
def toSend {σ α : Type} (w : World σ) : Work α → Store → σ → Work α × Store × σ
  | .look next, s, x => (next s.state).toSend w s x
  | .change us next, s, x => next.toSend w (s.updateAll us) x
  | .moment next, s, x =>
    let m := w.moment x
    (next m.1).toSend w s m.2
  | .say line next, s, x => next.toSend w s (w.say line x)
  | .wait millis next, s, x =>
    let t := w.wait millis x
    (next t.1).toSend w s t.2
  | .done a, s, x => (.done a, s, x)
  | .send wire next, s, x => (.send wire next, s, x)

/-- Does one step of a program that is not done. -/
def step {σ α : Type} (w : World σ) : Work α → Store → σ → Work α × Store × σ
  | .done a, s, x => (.done a, s, x)
  | .look next, s, x => (next s.state, s, x)
  | .change us next, s, x => (next, s.updateAll us, x)
  | .send wire next, s, x =>
    let r := w.send wire x
    (next r.1, s, r.2)
  | .moment next, s, x =>
    let m := w.moment x
    (next m.1, s, m.2)
  | .say line next, s, x => (next, s, w.say line x)
  | .wait millis next, s, x =>
    let t := w.wait millis x
    (next t.1, s, t.2)

end Work

end TicketDesk
