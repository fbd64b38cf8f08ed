import TicketDesk.CommandLine.Program
import TicketDesk.Proofs.Work.Sent

/-! # Jobs and their ends

A job that only looks, updates and prints ends in the same way whatever the world says. What is printed about an
operation is such a job, so it neither sends nor changes anything, and the operation alone decides whether the command
ends well. -/

namespace TicketDesk.CommandLine

variable {σ : Type} {w : World σ} {s t : Store} {x : σ} {outcome : Except String Unit}

/-! ### Jobs that send nothing -/

/-- Whatever the world says, a job sends nothing, turns one store into another and ends in this way. -/
structure Job.Ends (job : Job) (s t : Store) (outcome : Except String Unit) : Prop where
  outcome : ∀ {σ : Type} (w : World σ) (x : σ), (job.run w s x).1 = outcome
  store : ∀ {σ : Type} (w : World σ) (x : σ), (job.run w s x).2.1 = t
  silent : ∀ {σ : Type} (w : World σ) (x : σ), job.sent w s x = []

namespace Job

theorem ends_ok (s : Store) : Job.ok.Ends s s (.ok ()) := ⟨fun _ _ => rfl, fun _ _ => rfl, fun _ _ => rfl⟩

theorem ends_fail (s : Store) (complaint : String) : (Job.fail complaint).Ends s s (.error complaint) :=
  ⟨fun _ _ => rfl, fun _ _ => rfl, fun _ _ => rfl⟩

variable {job : Job}

theorem Ends.look {next : State → Job} (h : (next s.state).Ends s t outcome) : Ends (.look next) s t outcome :=
  ⟨h.outcome, h.store, h.silent⟩

theorem Ends.change {us : List Update} (h : job.Ends (s.updateAll us) t outcome) : Ends (.change us job) s t outcome :=
  ⟨h.outcome, h.store, h.silent⟩

theorem Ends.moment {next : Moment → Job} (h : ∀ m, (next m).Ends s t outcome) : Ends (.moment next) s t outcome :=
  ⟨fun w _ => (h _).outcome w _, fun w _ => (h _).store w _, fun w _ => (h _).silent w _⟩

theorem Ends.say {line : Line} (h : job.Ends s t outcome) : Ends (Work.say line job) s t outcome :=
  ⟨fun w _ => h.outcome w _, fun w _ => h.store w _, fun w _ => h.silent w _⟩

theorem Ends.andThen {next : Job} {u : Store} (h : job.Ends s t (.ok ())) (hnext : next.Ends t u outcome) :
    (job.andThen next).Ends s u outcome where
  outcome w x := by rw [Job.andThen, Work.run_bind, h.outcome, h.store, hnext.outcome]
  store w x := by rw [Job.andThen, Work.run_bind, h.outcome, h.store, hnext.store]
  silent w x := by rw [Job.andThen, Work.sent_bind, h.outcome, h.store, h.silent, hnext.silent, List.append_nil]

theorem ends_say (s : Store) (texts : List String) : (Job.say texts).Ends s s (.ok ()) := by
  induction texts with
  | nil => exact ends_ok s
  | cons text rest ih => exact ih.say

end Job

theorem ends_sayResult (s : Store) : sayResult.Ends s s (.ok ()) := .look (Job.ends_say s _)

/-! ### Reports -/

section Report

variable {α : Type} (work : Work (Except Fault α)) {next : α → Job}

/-- What comes of a command whose operation ended so. -/
def ending : Except Fault α → Except String Unit
  | .ok _ => .ok ()
  | .error e => .error e.message

/-- What follows an operation when it is reported. -/
theorem exists_report (h : ∀ a s, (next a).Ends s s (.ok ())) :
    ∃ rest : Except Fault α → Job, report work next = work.bind rest ∧
      ∀ result s, (rest result).Ends s s (ending result) := by
  refine ⟨_, rfl, fun result s => ?_⟩
  have hrest : Job.Ends (match result with | .ok a => next a | .error e => Job.fail e.message) s s (ending result) := by
    cases result with
    | ok a => exact h a s
    | error e => exact Job.ends_fail s e.message
  dsimp only
  split
  · exact (ends_sayResult s).andThen hrest
  · exact hrest

theorem run_report (h : ∀ a s, (next a).Ends s s (.ok ())) (w : World σ) (s : Store) (x : σ) :
    ((report work next).run w s x).1 = ending (work.run w s x).1 ∧
      ((report work next).run w s x).2.1 = (work.run w s x).2.1 := by
  obtain ⟨rest, hreport, hrest⟩ := exists_report work h
  rw [hreport, Work.run_bind]
  exact ⟨(hrest _ _).outcome w _, (hrest _ _).store w _⟩

theorem sent_report (h : ∀ a s, (next a).Ends s s (.ok ())) (w : World σ) (s : Store) (x : σ) :
    (report work next).sent w s x = work.sent w s x := by
  obtain ⟨rest, hreport, hrest⟩ := exists_report work h
  rw [hreport, Work.sent_bind, (hrest _ _).silent, List.append_nil]

end Report

/-! ### Sessions -/

theorem ends_withSession_of_none {next : Session → Job} (h : s.state.session = none) :
    (withSession next).Ends s s (.error Fault.notLoggedIn.message) := by
  refine .look ?_
  rw [h]
  exact Job.ends_fail s _

theorem run_withSession {next : Session → Job} {session : Session} (h : s.state.session = some session) (w : World σ)
    (x : σ) : (withSession next).run w s x = (next session).run w s x := by
  rw [withSession, Work.run, h]
  rfl

theorem sent_withSession {next : Session → Job} {session : Session} (h : s.state.session = some session) (w : World σ)
    (x : σ) : (withSession next).sent w s x = (next session).sent w s x := by
  rw [withSession, Work.sent, h]
  rfl

end TicketDesk.CommandLine
