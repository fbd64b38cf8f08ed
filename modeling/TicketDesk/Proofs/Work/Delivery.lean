import Mathlib.Data.List.Induction
import TicketDesk.Proofs.Work.Course
import TicketDesk.Task

/-! # Delivery

Tasks go to the worker over one channel and reports come back over another. Neither loses anything or
changes the order, and the worker does one task at a time. So the reports taken back, by drains and single
receives in any mixture, are those of the tasks handed in first, one each and in order, and the count of the
runner is the number of tasks whose reports are still to be taken. -/

namespace TicketDesk

namespace Runner

theorem begin_cases (c : Config) (p : Poller) (r : Runner) :
    (∃ t rest, r.running = none ∧ r.queue = t :: rest ∧
      r.begin c p = { r with queue := rest, running := some (t.describe, t.work c p) }) ∨
    ((r.running ≠ none ∨ r.queue = []) ∧ r.begin c p = r) := by
  rcases hrunning : r.running with _ | task
  · rcases hqueue : r.queue with _ | ⟨t, rest⟩
    · exact Or.inr ⟨Or.inr rfl, by simp only [begin, hrunning, hqueue]⟩
    · exact Or.inl ⟨t, rest, rfl, rfl, by simp only [begin, hrunning, hqueue]⟩
  · exact Or.inr ⟨Or.inl (by simp), by simp only [begin, hrunning]⟩

theorem finish_cases (r : Runner) :
    (∃ name outcome, r.running = some (name, .done outcome) ∧
      r.finish = { r with running := none, reports := r.reports ++ [⟨name, outcome⟩] }) ∨
    r.finish = r := by
  rw [finish]
  split
  · next name outcome hrunning => exact Or.inl ⟨name, outcome, hrunning, rfl⟩
  · exact Or.inr rfl

theorem receive?_cases (r : Runner) :
    (∃ report rest, r.reports = report :: rest ∧
      r.receive? = some (report, { r with reports := rest, pending := r.pending - 1 })) ∨
    r.receive? = none := by
  rw [receive?]
  split
  · next report rest hreports => exact Or.inl ⟨report, rest, hreports, rfl⟩
  · exact Or.inr rfl

end Runner

/-- A runner and the store that its worker works on. -/
structure Bench where
  runner : Runner
  store : Store

namespace Bench

/-- Something that happens to a runner, its worker or the store. -/
inductive Event where
  | submit (t : Task)
  | drain
  /-- Takes the oldest report; while there is none nothing comes of it. -/
  | receive
  /-- The idle worker takes its oldest task; the poller is what it is by then. -/
  | begin (p : Poller)
  | work (reply : Reply) (moment : Moment) (clock : Int)
  /-- The worker reports a task that is done. -/
  | report
  /-- Others change the store. -/
  | meanwhile (s : Store)

def onRunner (b : Bench) (f : Runner → Runner) : Bench := { b with runner := f b.runner }

def after (c : Config) (b : Bench) : Event → Bench
  | .submit t => b.onRunner (·.submit t)
  | .drain => b.onRunner (·.drain.2)
  | .receive => b.onRunner fun r => (r.receive?.map (·.2)).getD r
  | .begin p => b.onRunner (·.begin c p)
  | .work reply moment clock =>
    match b.runner.running with
    | some (name, work) =>
      let done := work.step (.saying reply moment clock) b.store ()
      ⟨{ b.runner with running := some (name, done.1) }, done.2.1⟩
    | none => b
  | .report => b.onRunner (·.finish)
  | .meanwhile s => { b with store := s }

def run (c : Config) (b : Bench) (es : List Event) : Bench := es.foldl (after c) b

/-- What the events of a run give, in order. -/
def collect {α : Type} (c : Config) (f : Bench → Event → List α) : Bench → List Event → List α
  | _, [] => []
  | b, e :: es => f b e ++ collect c f (b.after c e) es

def submitted (_ : Bench) : Event → List Task
  | .submit t => [t]
  | _ => []

/-- The task that the worker takes. -/
def begun (b : Bench) : Event → List Task
  | .begin _ => if b.runner.running.isNone then b.runner.queue.take 1 else []
  | _ => []

/-- The report that the worker sends. -/
def sent (b : Bench) : Event → List Report
  | .report => b.runner.finish.reports.drop b.runner.reports.length
  | _ => []

/-- The reports that the runner takes back. -/
def received (b : Bench) : Event → List Report
  | .drain => b.runner.drain.1
  | .receive => b.runner.receive?.toList.map (·.1)
  | _ => []

/-- What a step of the worker meets. -/
def stages (b : Bench) : Event → List Stage
  | .work reply moment clock => [⟨b.store.state, reply, moment, clock⟩]
  | _ => []

variable {c : Config} {b : Bench} {es es' : List Event} {e : Event}

theorem run_append : b.run c (es ++ es') = (b.run c es).run c es' := List.foldl_append

theorem run_concat : b.run c (es ++ [e]) = (b.run c es).after c e := List.foldl_append

section Collected

variable {α : Type} {f : Bench → Event → List α}

theorem collect_append : collect c f b (es ++ es') = collect c f b es ++ collect c f (b.run c es) es' := by
  induction es generalizing b with
  | nil => rfl
  | cons e es ih => simp only [List.cons_append, collect, ih, List.append_assoc, run, List.foldl_cons]

theorem collect_concat : collect c f b (es ++ [e]) = collect c f b es ++ f (b.run c es) e := by
  rw [collect_append, collect, collect, List.append_nil]

end Collected

/-! ### The channels -/

/-- What an event does to the two channels, to the hands of the worker and to the count. -/
structure Moved (c : Config) (b : Bench) (e : Event) : Prop where
  /-- What is begun leaves the queue at the front, and what is submitted joins it at the end. -/
  queue : b.runner.queue ++ b.submitted e = b.begun e ++ (b.after c e).runner.queue
  /-- What is received leaves the reports at the front, and what is sent joins them at the end. -/
  reports : b.runner.reports ++ b.sent e = b.received e ++ (b.after c e).runner.reports
  /-- The worker takes a task only when it is idle, and is idle once it has reported it. -/
  running : b.runner.running.toList.length + (b.begun e).length =
    (b.sent e).length + (b.after c e).runner.running.toList.length
  pending : (b.after c e).runner.pending = b.runner.pending + (b.submitted e).length - (b.received e).length
  ready : (b.received e).length ≤ b.runner.reports.length

theorem moved_after (c : Config) (b : Bench) (e : Event) : Moved c b e := by
  cases e with
  | submit t => constructor <;> simp [submitted, begun, sent, received, after, onRunner, Runner.submit]
  | drain => constructor <;> simp [submitted, begun, sent, received, after, onRunner, Runner.drain]
  | receive =>
    rcases b.runner.receive?_cases with ⟨report, rest, hreports, h⟩ | h
    · constructor <;> simp [submitted, begun, sent, received, after, onRunner, h, hreports]
    · constructor <;> simp [submitted, begun, sent, received, after, onRunner, h]
  | begin p =>
    rcases b.runner.begin_cases c p with ⟨t, rest, hidle, hqueue, h⟩ | ⟨hbusy | hqueue, h⟩
    · constructor <;> simp [submitted, begun, sent, received, after, onRunner, h, hidle, hqueue]
    · constructor <;> simp [submitted, begun, sent, received, after, onRunner, h, hbusy]
    · constructor <;> simp [submitted, begun, sent, received, after, onRunner, h, hqueue]
  | work reply moment clock =>
    rcases hrunning : b.runner.running with _ | task <;> constructor <;>
      simp [submitted, begun, sent, received, after, hrunning]
  | report =>
    rcases b.runner.finish_cases with ⟨name, outcome, hrunning, h⟩ | h
    · constructor <;> simp [submitted, begun, sent, received, after, onRunner, h, hrunning]
    · constructor <;> simp [submitted, begun, sent, received, after, onRunner, h]
  | meanwhile s => constructor <;> simp [submitted, begun, sent, received, after]

theorem queue_run (c : Config) (b : Bench) (es : List Event) :
    b.runner.queue ++ collect c submitted b es = collect c begun b es ++ (b.run c es).runner.queue := by
  induction es using List.reverseRecOn with
  | nil => exact List.append_nil _
  | append_singleton es e ih =>
    rw [collect_concat, collect_concat, run_concat, ← List.append_assoc, ih, List.append_assoc,
      (moved_after c (b.run c es) e).queue, List.append_assoc]

theorem reports_run (c : Config) (b : Bench) (es : List Event) :
    b.runner.reports ++ collect c sent b es = collect c received b es ++ (b.run c es).runner.reports := by
  induction es using List.reverseRecOn with
  | nil => exact List.append_nil _
  | append_singleton es e ih =>
    rw [collect_concat, collect_concat, run_concat, ← List.append_assoc, ih, List.append_assoc,
      (moved_after c (b.run c es) e).reports, List.append_assoc]

theorem running_run (c : Config) (b : Bench) (es : List Event) :
    b.runner.running.toList.length + (collect c begun b es).length =
      (collect c sent b es).length + (b.run c es).runner.running.toList.length := by
  induction es using List.reverseRecOn with
  | nil => exact Nat.add_comm _ _
  | append_singleton es e ih =>
    have hlast := (moved_after c (b.run c es) e).running
    rw [collect_concat, collect_concat, run_concat, List.length_append, List.length_append]
    omega

/-! ### What arrives -/

/-- The worker sends a report of a task that is done. -/
theorem sent_of_done {name : String} {outcome : Except Fault TaskOutput}
    (h : (b.run c es).runner.running = some (name, .done outcome)) :
    collect c sent b (es ++ [.report]) = collect c sent b es ++ [⟨name, outcome⟩] := by
  have hfinish : (b.run c es).runner.finish =
      { (b.run c es).runner with running := none, reports := (b.run c es).runner.reports ++ [⟨name, outcome⟩] } := by
    rw [Runner.finish, h]
  rw [collect_concat, sent, hfinish, List.drop_left]

/-- A drain hands over all that is ready: with it everything that was sent is received. -/
theorem received_of_drain (hnone : b.runner.reports = []) (c : Config) (es : List Event) :
    collect c received b (es ++ [.drain]) = collect c sent b es := by
  have hchannel := reports_run c b es
  rw [hnone, List.nil_append] at hchannel
  rw [collect_concat, hchannel]
  rfl

/-- So the report of a task that is done arrives, after all that were sent before it. -/
theorem received_of_done (hnone : b.runner.reports = []) {name : String} {outcome : Except Fault TaskOutput}
    (h : (b.run c es).runner.running = some (name, .done outcome)) :
    collect c received b (es ++ [.report] ++ [.drain]) = collect c sent b es ++ [⟨name, outcome⟩] := by
  rw [received_of_drain hnone, sent_of_done h]

/-- A check that is answered arrives, and so does a poll that was dropped in between. -/
example :
    let work : Event := .work (.answer ⟨200, "", 5⟩) ⟨0, 0, ""⟩ 0
    let begin : Event := .begin { interval := 3000 }
    let es := [.submit (.check .query), begin, .submit (.poll ⟨1⟩)] ++ List.replicate 5 work ++ [.report, begin, .report]
    (collect .initial received ⟨{}, .load .unwritable⟩ (es ++ [.drain])).map Report.summary =
      ["query-service /healthz: ready", "Poll Query Order View dropped: polling stopped"] := by
  decide +kernel

/-! ### The count -/

/-- The count of a runner is the number of tasks that are queued, under way or reported. -/
def Balanced (b : Bench) : Prop :=
  b.runner.pending = b.runner.queue.length + b.runner.running.toList.length + b.runner.reports.length

/-- What is taken back was counted, so that the subtraction is exact. -/
theorem Balanced.pending_after (h : b.Balanced) (c : Config) (e : Event) :
    (b.after c e).runner.pending + (b.received e).length = b.runner.pending + (b.submitted e).length := by
  have hmoved := moved_after c b e
  have hcounted : (b.received e).length ≤ b.runner.pending + (b.submitted e).length := by
    have hready := hmoved.ready
    rw [Balanced] at h
    omega
  rw [hmoved.pending, Nat.sub_add_cancel hcounted]

theorem Balanced.after (h : b.Balanced) (c : Config) (e : Event) : (b.after c e).Balanced := by
  have hmoved := moved_after c b e
  have hpending := h.pending_after c e
  have hqueue := congrArg List.length hmoved.queue
  have hreports := congrArg List.length hmoved.reports
  have hrunning := hmoved.running
  rw [List.length_append, List.length_append] at hqueue hreports
  rw [Balanced] at h ⊢
  omega

theorem Balanced.run (h : b.Balanced) (c : Config) (es : List Event) : (b.run c es).Balanced := by
  induction es using List.reverseRecOn with
  | nil => exact h
  | append_singleton es e ih => exact run_concat ▸ ih.after c e

theorem Balanced.pending_run (h : b.Balanced) (c : Config) (es : List Event) :
    (b.run c es).runner.pending + (collect c received b es).length =
      b.runner.pending + (collect c submitted b es).length := by
  induction es using List.reverseRecOn with
  | nil => rfl
  | append_singleton es e ih =>
    have hlast := (h.run c es).pending_after c e
    rw [collect_concat, collect_concat, run_concat, List.length_append, List.length_append]
    omega

/-! ### One task after the other -/

/-- Between two parts of a run the worker took a task, and what came since left so much of its work. -/
structure Underway (c : Config) (b : Bench) (before : List Event) (p : Poller) (since : List Event) (t : Task)
    (work : Work (Except Fault TaskOutput)) : Prop where
  idle : (b.run c before).runner.running = none
  oldest : (b.run c before).runner.queue.head? = some t
  unsent : collect c sent (b.run c (before ++ [.begin p])) since = []
  course : (t.work c p).along (collect c stages (b.run c (before ++ [.begin p])) since) = work

/-- The worker took a task when it had reported so many others, did it to its end and sent a report of it. -/
def CarriedOut (c : Config) (b : Bench) (es : List Event) (earlier : Nat) (t : Task) (r : Report) : Prop :=
  ∃ before p since rest, es = before ++ .begin p :: since ++ .report :: rest ∧
    (collect c sent b before).length = earlier ∧ Underway c b before p since t (.done r.outcome) ∧
    r.task = t.describe

theorem CarriedOut.concat {n : Nat} {t : Task} {r : Report} (h : CarriedOut c b es n t r) (e : Event) :
    CarriedOut c b (es ++ [e]) n t r := by
  obtain ⟨before, p, since, rest, rfl, h⟩ := h
  exact ⟨before, p, since, rest ++ [e], by simp, h⟩

/-- What the worker has in hand comes of a task that it took when it was idle. -/
def Accounted (c : Config) (b : Bench) (es : List Event) : Prop :=
  ∀ name work, (b.run c es).runner.running = some (name, work) →
    ∃ before p since t, es = before ++ .begin p :: since ∧ Underway c b before p since t work ∧ name = t.describe

theorem run_begin_append (before since : List Event) (p : Poller) :
    (b.run c (before ++ [.begin p])).run c since = b.run c (before ++ .begin p :: since) := by
  rw [← run_append, List.append_assoc, List.singleton_append]

theorem Underway.collect_sent {before since : List Event} {p : Poller} {t : Task}
    {work : Work (Except Fault TaskOutput)} (h : Underway c b before p since t work) :
    collect c sent b (before ++ .begin p :: since) = collect c sent b before := by
  have hbegin : (b.run c before).sent (.begin p) = [] := rfl
  rw [List.append_cons, collect_append, h.unsent, collect_concat, hbegin, List.append_nil, List.append_nil]

/-- Unless the event reports the task, its work goes on by what the event makes it meet. -/
theorem Underway.concat {before since : List Event} {p : Poller} {t : Task} {work : Work (Except Fault TaskOutput)}
    (h : Underway c b before p since t work) (hsent : (b.run c (before ++ .begin p :: since)).sent e = []) :
    Underway c b before p (since ++ [e]) t (work.along ((b.run c (before ++ .begin p :: since)).stages e)) := by
  refine ⟨h.idle, h.oldest, ?_, ?_⟩
  · rw [collect_concat, h.unsent, run_begin_append, hsent]
    rfl
  · rw [collect_concat, run_begin_append, Work.along_append, h.course]

theorem accounted_concat (h : Accounted c b es) (e : Event) : Accounted c b (es ++ [e]) := by
  -- An event that leaves the worker at what it is at leaves the account as it is.
  have hstill (hsent : (b.run c es).sent e = []) (hstages : (b.run c es).stages e = [])
      (hrunning : ((b.run c es).after c e).runner.running = (b.run c es).runner.running) : Accounted c b (es ++ [e]) := by
    intro name work hnow
    rw [run_concat, hrunning] at hnow
    obtain ⟨before, p, since, t, rfl, hunder, hname⟩ := h name work hnow
    have hnext := hunder.concat hsent
    rw [hstages] at hnext
    exact ⟨before, p, since ++ [e], t, by simp, hnext, hname⟩
  cases e with
  | submit t => exact hstill rfl rfl rfl
  | drain => exact hstill rfl rfl rfl
  | receive =>
    refine hstill rfl rfl ?_
    rcases (b.run c es).runner.receive?_cases with ⟨report, rest, -, h⟩ | h <;> simp [after, onRunner, h]
  | begin p =>
    rcases (b.run c es).runner.begin_cases c p with ⟨t, rest, hidle, hqueue, hbegin⟩ | ⟨-, hbegin⟩
    · intro name work hnow
      simp only [run_concat, after, onRunner, hbegin, Option.some.injEq, Prod.mk.injEq] at hnow
      obtain ⟨rfl, rfl⟩ := hnow
      exact ⟨es, p, [], t, rfl, ⟨hidle, by rw [hqueue]; rfl, rfl, rfl⟩, rfl⟩
    · exact hstill rfl rfl (by simp only [after, onRunner, hbegin])
  | work reply moment clock =>
    intro name work hnow
    rw [run_concat, after] at hnow
    rcases hrunning : (b.run c es).runner.running with _ | ⟨old, under⟩
    · simp [hrunning] at hnow
    · simp only [hrunning, Work.step_saying, Option.some.injEq, Prod.mk.injEq] at hnow
      obtain ⟨rfl, rfl⟩ := hnow
      obtain ⟨before, p, since, t, rfl, hunder, hname⟩ := h old under hrunning
      exact ⟨before, p, since ++ [.work reply moment clock], t, by simp, hunder.concat rfl, hname⟩
  | report =>
    rcases (b.run c es).runner.finish_cases with ⟨old, outcome, -, hfinish⟩ | hfinish
    · intro name work hnow
      simp [run_concat, after, onRunner, hfinish] at hnow
    · refine hstill ?_ rfl (by simp only [after, onRunner, hfinish])
      rw [sent, hfinish, List.drop_length]
  | meanwhile s => exact hstill rfl rfl rfl

theorem accounted_run (hidle : b.runner.running = none) (c : Config) (es : List Event) : Accounted c b es := by
  induction es using List.reverseRecOn with
  | nil =>
    intro name work hnow
    rw [run, List.foldl_nil, hidle] at hnow
    cases hnow
  | append_singleton es e ih => exact accounted_concat ih e

/-- Each report that the worker sent is of a task that it carried out after it had sent the reports before. -/
theorem carriedOut_of_sent (hidle : b.runner.running = none) (c : Config) (es : List Event) {i : Nat} {r : Report}
    (h : (collect c sent b es)[i]? = some r) : ∃ t, CarriedOut c b es i t r := by
  induction es using List.reverseRecOn with
  | nil => cases h
  | append_singleton es e ih =>
    rw [collect_concat] at h
    by_cases hlt : i < (collect c sent b es).length
    · rw [List.getElem?_append_left hlt] at h
      obtain ⟨t, hcarried⟩ := ih h
      exact ⟨t, hcarried.concat e⟩
    · rw [List.getElem?_append_right (Nat.le_of_not_lt hlt)] at h
      have hmem : r ∈ (b.run c es).sent e := List.mem_of_getElem? h
      cases e with
      | report =>
        rcases (b.run c es).runner.finish_cases with ⟨name, outcome, hrunning, hfinish⟩ | hfinish
        · rw [sent, hfinish, List.drop_left] at h hmem
          obtain rfl := List.mem_singleton.mp hmem
          obtain ⟨before, p, since, t, rfl, hunder, hname⟩ := accounted_run hidle c es name _ hrunning
          have hindex : i - (collect c sent b (before ++ .begin p :: since)).length = 0 := by
            have hbound := (List.getElem?_eq_some_iff.mp h).1
            rw [List.length_singleton] at hbound
            omega
          rw [hunder.collect_sent] at hlt hindex
          exact ⟨t, before, p, since, [], rfl, by omega, hunder, hname⟩
        · rw [sent, hfinish, List.drop_length] at hmem
          cases hmem
      | _ => cases hmem

/-- The task that the worker took when it had reported so many is the one that was handed in after so many. -/
theorem CarriedOut.getElem?_submitted {i : Nat} {t : Task} {r : Report} (h : CarriedOut c b es i t r)
    (hqueue : b.runner.queue = []) (hidle : b.runner.running = none) : (collect c submitted b es)[i]? = some t := by
  obtain ⟨before, p, since, rest, rfl, hearlier, hunder, -⟩ := h
  have hchannel := queue_run c b before
  have hhands := running_run c b before
  simp only [hqueue, List.nil_append] at hchannel
  simp only [hidle, hunder.idle, Option.toList_none, List.length_nil, Nat.zero_add, Nat.add_zero] at hhands
  have hfirst : (collect c submitted b before)[i]? = some t := by
    rw [hchannel, List.getElem?_append_right (by omega), ← hunder.oldest, List.head?_eq_getElem?]
    congr 1
    omega
  rw [List.append_assoc, collect_append, List.getElem?_append_left (List.getElem?_eq_some_iff.mp hfirst).1, hfirst]

/-- What a run delivers. -/
structure Delivered (c : Config) (b : Bench) (es : List Event) : Prop where
  /-- Each report that the worker sent is of the task that was handed in at that place, carried out after all
      the tasks before it were reported. -/
  carriedOut : ∀ i r, (collect c sent b es)[i]? = some r →
    ∃ t, (collect c submitted b es)[i]? = some t ∧ CarriedOut c b es i t r
  /-- The reports received are the first that were sent. -/
  inOrder : collect c received b es <+: collect c sent b es
  /-- So many tasks were handed in and not yet taken back. -/
  pending : (b.run c es).runner.pending + (collect c received b es).length = (collect c submitted b es).length
  /-- No more reports are ready than are counted, so neither a drain nor a receive subtracts too much. -/
  ready : (b.run c es).runner.reports.length ≤ (b.run c es).runner.pending
  isBusy : (b.run c es).runner.isBusy = false ↔
    (collect c received b es).length = (collect c submitted b es).length

/-- Whatever happens to a new runner, and in whatever order, it delivers. -/
theorem delivered_run (c : Config) (s : Store) (es : List Event) : Delivered c ⟨{}, s⟩ es := by
  have hbalanced : Balanced ⟨{}, s⟩ := rfl
  have hpending : ((⟨{}, s⟩ : Bench).run c es).runner.pending + (collect c received ⟨{}, s⟩ es).length =
      (collect c submitted ⟨{}, s⟩ es).length :=
    (hbalanced.pending_run c es).trans (Nat.zero_add _)
  have hreports := reports_run c ⟨{}, s⟩ es
  exact {
    carriedOut := fun i r h => by
      obtain ⟨t, hcarried⟩ := carriedOut_of_sent rfl c es h
      exact ⟨t, hcarried.getElem?_submitted rfl rfl, hcarried⟩
    inOrder := ⟨_, hreports.symm⟩
    pending := hpending
    ready := hbalanced.run c es ▸ Nat.le_add_left _ _
    isBusy := by
      rw [Runner.isBusy, decide_eq_false_iff_not]
      omega }

end Bench

end TicketDesk
