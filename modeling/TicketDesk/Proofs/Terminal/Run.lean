import Mathlib.Data.List.Induction
import TicketDesk.Proofs.Work.Course
import TicketDesk.Proofs.Work.Effects
import TicketDesk.Terminal.Console

/-! # Runs of the terminal

A run is a list of events in any order: keys, ticks, and what the worker does in between. The worker takes
a task and checks its ticket in one event, does each step of it in an event of its own, with whatever the
world says then, and reports it in another. What a run hands in, takes back, switches or sends is collected
event by event. -/

namespace TicketDesk.Terminal

/-- Something that happens to the terminal or to its worker. -/
inductive Event where
  | key (e : KeyEvent) (now : Int) (m : Moment)
  | tick (now : Int)
  /-- The idle worker takes its oldest task and checks its ticket. -/
  | begin
  /-- The worker does a step of its task, and this is what the world says to it. -/
  | work (reply : Reply) (moment : Moment) (clock : Int)
  /-- The worker reports a task that is done. -/
  | report

/-- Whether an event is one of the user interface. -/
def Event.isFront : Event → Bool
  | .key _ _ _ => true
  | .tick _ => true
  | _ => false

namespace Desk

/-- The desk with other work under way. -/
def withWork (d : Desk) (name : String) (work : Work (Except Fault TaskOutput)) (s : Store) : Desk :=
  ⟨{ d.console with runner := { d.console.runner with running := some (name, work) } }, s⟩

/-- The desk after an event. -/
def after (c : Config) (d : Desk) : Event → Desk
  | .key e now m => (d.handleKey e now m).1
  | .tick now => d.tick now
  | .begin => { d with console := { d.console with runner := d.console.runner.begin c d.console.poller } }
  | .work reply moment clock =>
    match d.console.runner.running with
    | some (name, work) =>
      let done := work.step (.saying reply moment clock) d.store ()
      d.withWork name done.1 done.2.1
    | none => d
  | .report => { d with console := { d.console with runner := d.console.runner.finish } }

/-- The desk after events in order. -/
def run (c : Config) (d : Desk) (es : List Event) : Desk := es.foldl (after c) d

section Runs

variable {c : Config} {d : Desk} {e : Event} {es es' : List Event}

theorem run_nil : d.run c [] = d := rfl

theorem run_append : d.run c (es ++ es') = (d.run c es).run c es' := List.foldl_append

theorem run_concat : d.run c (es ++ [e]) = (d.run c es).after c e := by
  rw [run_append]
  rfl

/-! ### What a run gives -/

/-- What the events of a run give, in order. -/
def collect {α : Type} (c : Config) (f : Desk → Event → List α) : Desk → List Event → List α
  | _, [] => []
  | d, e :: es => f d e ++ collect c f (d.after c e) es

theorem collect_append {α : Type} {f : Desk → Event → List α} :
    collect c f d (es ++ es') = collect c f d es ++ collect c f (d.run c es) es' := by
  induction es generalizing d with
  | nil => rfl
  | cons e es ih => simp only [List.cons_append, collect, ih, List.append_assoc, run, List.foldl_cons]

theorem collect_concat {α : Type} {f : Desk → Event → List α} :
    collect c f d (es ++ [e]) = collect c f d es ++ f (d.run c es) e := by
  rw [collect_append, collect, collect, List.append_nil]

end Runs

/-- The tasks that an event of the user interface hands in. -/
def submitted (c : Config) (d : Desk) (e : Event) : List Task :=
  if e.isFront then (d.after c e).console.runner.queue.drop d.console.runner.queue.length else []

/-- The reports that an event takes back. -/
def received (d : Desk) : Event → List Report
  | .tick _ => d.console.runner.reports
  | _ => []

/-- The event itself, if it switches the poller. -/
def switching (c : Config) (d : Desk) (e : Event) : List Event :=
  if (d.after c e).console.poller.generation = d.console.poller.generation then [] else [e]

/-- The request that an event makes a poll send. -/
def pollRequest (d : Desk) : Event → List Wire
  | .work _ _ _ =>
    match d.console.runner.running with
    | some (name, .send wire _) => if name = Request.pollLabel then [wire] else []
    | _ => []
  | _ => []

/-! ### Whole tasks -/

section Whole

variable {σ : Type} (w : World σ) (c : Config) (d : Desk)

/-- A run from after the next step of the work under way is a run from before it, whatever the world says. -/
theorem exists_run_of_step {name : String} {work : Work (Except Fault TaskOutput)} {s : Store} (x : σ) {t : Desk}
    (h : ∃ es, (d.withWork name (work.step w s x).1 (work.step w s x).2.1).run c es = t) :
    ∃ es, (d.withWork name work s).run c es = t := by
  obtain ⟨es, h⟩ := h
  cases work with
  | send wire next => exact ⟨.work (w.send wire x).1 ⟨0, 0, ""⟩ 0 :: es, h⟩
  | moment next => exact ⟨.work (.unreachable "") (w.moment x).1 0 :: es, h⟩
  | wait millis next => exact ⟨.work (.unreachable "") ⟨0, 0, ""⟩ (w.wait millis x).1 :: es, h⟩
  | _ => exact ⟨.work (.unreachable "") ⟨0, 0, ""⟩ 0 :: es, h⟩

/-- Work under way is done to its end in a run, whatever the world says. -/
theorem exists_run_work (name : String) (work : Work (Except Fault TaskOutput)) (s : Store) (x : σ) :
    ∃ es, (d.withWork name work s).run c es = d.withWork name (.done (work.run w s x).1) (work.run w s x).2.1 := by
  induction work generalizing s x with
  | done outcome => exact ⟨[], rfl⟩
  | look next ih => exact exists_run_of_step w c d x (ih s.state s x)
  | change us next ih => exact exists_run_of_step w c d x (ih (s.updateAll us) x)
  | send wire next ih => exact exists_run_of_step w c d x (ih (w.send wire x).1 s (w.send wire x).2)
  | moment next ih => exact exists_run_of_step w c d x (ih (w.moment x).1 s (w.moment x).2)
  | say line next ih => exact exists_run_of_step w c d x (ih s (w.say line x))
  | wait millis next ih => exact exists_run_of_step w c d x (ih (w.wait millis x).1 s (w.wait millis x).2)

/-- Work under way gets to its next request in a run, whatever the world says. -/
theorem exists_run_toSend (name : String) (work : Work (Except Fault TaskOutput)) (s : Store) (x : σ) :
    ∃ es, (d.withWork name work s).run c es = d.withWork name (work.toSend w s x).1 (work.toSend w s x).2.1 := by
  induction work generalizing s x with
  | done outcome => exact ⟨[], rfl⟩
  | send wire next ih => exact ⟨[], rfl⟩
  | look next ih => exact exists_run_of_step w c d x (ih s.state s x)
  | change us next ih => exact exists_run_of_step w c d x (ih (s.updateAll us) x)
  | moment next ih => exact exists_run_of_step w c d x (ih (w.moment x).1 s (w.moment x).2)
  | say line next ih => exact exists_run_of_step w c d x (ih s (w.say line x))
  | wait millis next ih => exact exists_run_of_step w c d x (ih (w.wait millis x).1 s (w.wait millis x).2)

/-- The work that the worker is at once it has taken a task. -/
theorem after_begin_withWork {name : String} {work : Work (Except Fault TaskOutput)}
    (h : (d.console.runner.begin c d.console.poller).running = some (name, work)) :
    (d.after c .begin).withWork name work d.store = d.after c .begin := by
  rw [withWork, ← h]
  rfl

/-- Letting the worker go on to its next request is a run. -/
theorem exists_run_advance (x : σ) : ∃ es, (d.advance w c x).1 = d.run c es := by
  rw [advance, Runner.advance]
  dsimp only
  cases hrunning : (d.console.runner.begin c d.console.poller).running with
  | none => exact ⟨[.begin], rfl⟩
  | some task =>
    obtain ⟨name, work⟩ := task
    obtain ⟨es, h⟩ := exists_run_toSend w c (d.after c .begin) name work d.store x
    rw [after_begin_withWork c d hrunning] at h
    exact ⟨.begin :: es, h.symm⟩

/-- Letting the worker finish a task is a run. -/
theorem exists_run_complete (x : σ) : ∃ es, (d.complete w c x).1 = d.run c es := by
  rw [complete, Runner.complete]
  dsimp only
  cases hrunning : (d.console.runner.begin c d.console.poller).running with
  | none => exact ⟨[.begin], rfl⟩
  | some task =>
    obtain ⟨name, work⟩ := task
    obtain ⟨es, h⟩ := exists_run_work w c (d.after c .begin) name work d.store x
    rw [after_begin_withWork c d hrunning] at h
    refine ⟨.begin :: (es ++ [.report]), ?_⟩
    rw [run, List.foldl_cons, ← run, run_concat, h]
    rfl

end Whole

end Desk

end TicketDesk.Terminal
