import TicketDesk.Proofs.Schedule
import TicketDesk.Proofs.Terminal.Run

/-! # What an event does to the worker and the poller

A key hands in at most one task, never a poll, and switches the poller at most once. A tick takes the
reports back, switches the poller off away from the booking view, and hands in a poll at most. The worker
moves a task from the queue to the reports. Each operation is described once; everything about the poller
and the queue in a run follows from these descriptions. -/

namespace TicketDesk

/-! ### The runner -/

namespace Runner

/-- The tasks handed in and not yet taken back as reports, by name, oldest first. -/
def names (r : Runner) : List String :=
  r.reports.map (·.task) ++ (r.running.toList.map (·.1) ++ r.queue.map Task.describe)

theorem names_submit (r : Runner) (t : Task) : (r.submit t).names = r.names ++ [t.describe] := by
  simp [names, submit]

theorem names_begin (c : Config) (p : Poller) (r : Runner) : (r.begin c p).names = r.names := by
  rw [begin]
  split
  · next hrunning hqueue => simp [names, hrunning, hqueue]
  · rfl

theorem names_finish (r : Runner) : r.finish.names = r.names := by
  rw [finish]
  split
  · next hrunning => simp [names, hrunning]
  · rfl

theorem names_drain (r : Runner) : r.names = r.drain.1.map (·.task) ++ r.drain.2.names := by
  simp [names, drain]

end Runner

/-! ### The poller -/

namespace Poller

theorem isEnabled_due (p : Poller) (now : Int) : (p.due now).2.isEnabled = p.isEnabled := by
  rw [due]
  split
  · next hdue => split <;> simp [isEnabled, hdue]
  · rfl

theorem isEnabled_of_due {p : Poller} {now : Int} (h : (p.due now).1 = true) : p.isEnabled = true := by
  rw [due] at h
  split at h
  · next hdue => simp [isEnabled, hdue]
  · cases h

/-- The poller was left as it is, but for the time of the next poll, or was switched once. -/
def Moved (p q : Poller) : Prop :=
  (q.generation = p.generation ∧ q.isEnabled = p.isEnabled) ∨ q.generation = p.generation + 1

theorem Moved.refl (p : Poller) : p.Moved p := Or.inl ⟨rfl, rfl⟩

theorem moved_enable (p : Poller) (now : Int) : p.Moved (p.enable now) := Or.inr rfl

theorem moved_disable (p : Poller) : p.Moved p.disable := Or.inr rfl

theorem Moved.due {p q : Poller} (h : p.Moved q) (now : Int) : p.Moved (q.due now).2 := by
  rw [Moved, generation_due, isEnabled_due]
  exact h

end Poller

namespace Terminal.Desk

/-! ### Keys -/

/-- What a key leaves of the queue, the poller and the poll that is out. -/
structure Handled (d t : Desk) : Prop where
  runner : t.console.runner = d.console.runner ∨
    ∃ task, task.isPoll = false ∧ t.console.runner = d.console.runner.submit task
  poller : d.console.poller.Moved t.console.poller
  inFlight : t.console.pollInFlight = d.console.pollInFlight

theorem handled_of_console {d t : Desk} (hr : t.console.runner = d.console.runner)
    (hp : t.console.poller = d.console.poller) (hf : t.console.pollInFlight = d.console.pollInFlight) : Handled d t :=
  ⟨Or.inl hr, hp ▸ .refl _, hf⟩

theorem Handled.onFront {d t : Desk} (h : Handled d t) (f : Front → Front) : Handled d (t.onFront f) :=
  ⟨h.runner, h.poller, h.inFlight⟩

theorem Handled.say {d t : Desk} (h : Handled d t) (level : Level) (message : String) :
    Handled d (t.say level message) :=
  h.onFront _

theorem Handled.update {d t : Desk} (h : Handled d t) (u : Update) : Handled d (t.update u) :=
  ⟨h.runner, h.poller, h.inFlight⟩

theorem handled_submit (d : Desk) {t : Task} (h : t.isPoll = false) : Handled d (d.submit t) :=
  ⟨Or.inr ⟨t, h, rfl⟩, .refl _, rfl⟩

theorem handled_setPolling (d : Desk) (on : Bool) (now : Int) : Handled d (d.setPolling on now) := by
  refine ⟨Or.inl rfl, ?_, rfl⟩
  cases on
  · exact Poller.moved_disable _
  · exact Poller.moved_enable _ now

theorem handled_togglePolling (d : Desk) (now : Int) : Handled d (d.togglePolling now) :=
  (handled_setPolling d _ now).say _ _

theorem handled_logout (d : Desk) (now : Int) : Handled d (d.logout now) :=
  (((handled_setPolling d false now).update _).onFront _).say _ _

theorem handled_submitLogin (d : Desk) (m : Moment) : Handled d (d.submitLogin m) := by
  rw [submitLogin]
  split <;> exact handled_of_console rfl rfl rfl

theorem handled_commitEdit (d : Desk) : Handled d d.commitEdit := by
  rw [commitEdit]
  split
  · exact handled_of_console rfl rfl rfl
  · dsimp only
    split <;> exact handled_of_console rfl rfl rfl

theorem handled_activate (d : Desk) (now : Int) : Handled d (d.activate now) := by
  rw [activate]
  split
  · exact handled_of_console rfl rfl rfl
  · exact handled_of_console rfl rfl rfl
  · exact handled_submit d rfl
  · exact handled_submit d rfl
  · exact handled_of_console rfl rfl rfl
  · exact handled_togglePolling d now
  · exact handled_submit d rfl
  · exact handled_submit d rfl

theorem handled_replaySelected (d : Desk) : Handled d d.replaySelected := by
  rw [replaySelected]
  split
  · exact handled_submit d rfl
  · exact handled_of_console rfl rfl rfl

theorem handled_loginKey (d : Desk) (e : KeyEvent) (c : Option Command) (m : Moment) :
    Handled d (d.loginKey e c m).1 := by
  unfold loginKey
  split
  · exact handled_of_console rfl rfl rfl
  · exact handled_of_console rfl rfl rfl
  · exact handled_submitLogin d m
  · exact handled_of_console rfl rfl rfl

theorem handled_editKey (d : Desk) (e : KeyEvent) (c : Option Command) : Handled d (d.editKey e c) := by
  unfold editKey
  split
  · exact handled_of_console rfl rfl rfl
  · exact handled_commitEdit d
  · exact handled_of_console rfl rfl rfl

theorem handled_viewCommand (d : Desk) (c : Command) (now : Int) : Handled d (d.viewCommand c now).1 := by
  cases c with
  | select => exact handled_activate d now
  | togglePolling => exact handled_togglePolling d now
  | replay => exact handled_replaySelected d
  | logout => exact handled_logout d now
  | _ => exact handled_of_console rfl rfl rfl

theorem handled_viewKey (d : Desk) (e : KeyEvent) (c : Option Command) (now : Int) :
    Handled d (d.viewKey e c now).1 := by
  unfold viewKey
  split
  · exact handled_of_console rfl rfl rfl
  · split
    · exact handled_viewCommand d _ now
    · exact handled_of_console rfl rfl rfl

theorem handled_handleKey (d : Desk) (e : KeyEvent) (now : Int) (m : Moment) :
    Handled d (d.handleKey e now m).1 := by
  rw [handleKey]
  split
  · exact handled_of_console rfl rfl rfl
  · split
    · exact handled_of_console rfl rfl rfl
    · split
      · split <;> exact handled_of_console rfl rfl rfl
      · dsimp only
        split
        · exact handled_loginKey d e _ m
        · exact handled_editKey d e _
        · exact handled_viewKey d e _ now

/-- The login form hands in nothing. -/
theorem runner_handleKey_of_login {d : Desk} (hm : d.console.front.mode = .login) (e : KeyEvent) (now : Int) (m : Moment) :
    (d.handleKey e now m).1.console.runner = d.console.runner := by
  have hform (c : Option Command) : (d.loginKey e c m).1.console.runner = d.console.runner := by
    unfold loginKey
    split
    · rfl
    · rfl
    · rw [submitLogin]
      split <;> rfl
    · rfl
  simp only [handleKey, hm]
  split
  · rfl
  · split
    · rfl
    · split
      · split <;> rfl
      · exact hform _

/-! ### Ticks -/

def hasPoll (rs : List Report) : Bool := rs.any fun r => r.task = Request.pollLabel

/-- What taking in reports leaves: only the status line, the history cursor and the flag of the poll
    that is out may change. -/
structure Applied (d t : Desk) (rs : List Report) : Prop where
  store : t.store = d.store
  runner : t.console.runner = d.console.runner
  poller : t.console.poller = d.console.poller
  inFlight : t.console.pollInFlight = (d.console.pollInFlight && !hasPoll rs)
  mode : t.console.front.mode = d.console.front.mode
  effectiveMode : t.console.front.effectiveMode = d.console.front.effectiveMode

theorem mode_clampHistory (f : Front) (n : Nat) : (f.clampHistory n).mode = f.mode := by
  rw [Front.clampHistory]
  split <;> rfl

theorem effectiveMode_clampHistory (f : Front) (n : Nat) : (f.clampHistory n).effectiveMode = f.effectiveMode := by
  rw [Front.clampHistory]
  split <;> rfl

theorem Applied.onFront {d t : Desk} {rs : List Report} (h : Applied d t rs) (f : Front → Front)
    (hmode : ∀ x, (f x).mode = x.mode) (heffective : ∀ x, (f x).effectiveMode = x.effectiveMode) :
    Applied d (t.onFront f) rs :=
  ⟨h.store, h.runner, h.poller, h.inFlight, (hmode _).trans h.mode, (heffective _).trans h.effectiveMode⟩

theorem Applied.say {d t : Desk} {rs : List Report} (h : Applied d t rs) (level : Level) (message : String) :
    Applied d (t.say level message) rs :=
  h.onFront _ (fun _ => rfl) fun _ => rfl

theorem applied_applyReport (d : Desk) (r : Report) : Applied d (d.applyReport r) [r] := by
  have hflag : Applied d
      (if r.task = Request.pollLabel then { d with console := { d.console with pollInFlight := false } } else d) [r] := by
    split
    · next h => exact ⟨rfl, rfl, rfl, by simp [hasPoll, h], rfl, rfl⟩
    · next h => exact ⟨rfl, rfl, rfl, by simp [hasPoll, h], rfl, rfl⟩
  unfold applyReport
  dsimp only
  split
  · exact hflag
  · exact (hflag.say _ _).onFront _ (mode_clampHistory · _) (effectiveMode_clampHistory · _)

theorem applied_foldl (d : Desk) (rs : List Report) : Applied d (rs.foldl applyReport d) rs := by
  induction rs generalizing d with
  | nil => exact ⟨rfl, rfl, rfl, by simp [hasPoll], rfl, rfl⟩
  | cons r rs ih =>
    have hr := applied_applyReport d r
    have hrs := ih (d.applyReport r)
    refine ⟨hrs.store.trans hr.store, hrs.runner.trans hr.runner, hrs.poller.trans hr.poller, ?_,
      hrs.mode.trans hr.mode, hrs.effectiveMode.trans hr.effectiveMode⟩
    rw [List.foldl_cons, hrs.inFlight, hr.inFlight]
    simp [hasPoll, Bool.and_assoc]

structure Ticked (d t : Desk) : Prop where
  store : t.store = d.store
  mode : t.console.front.mode = d.console.front.mode
  effectiveMode : t.console.front.effectiveMode = d.console.front.effectiveMode
  poller : d.console.poller.Moved t.console.poller
  booking : t.console.poller.isEnabled = true → t.console.front.effectiveMode = .booking
  /-- Either no poll is handed in, or none was out and one is handed in while the poller is on. -/
  runner :
    (t.console.runner = d.console.runner.drain.2 ∧
      t.console.pollInFlight = (d.console.pollInFlight && !hasPoll d.console.runner.reports)) ∨
    (t.console.runner = d.console.runner.drain.2.submit (.poll ⟨t.console.poller.generation⟩) ∧
      (d.console.pollInFlight && !hasPoll d.console.runner.reports) = false ∧
      t.console.pollInFlight = true ∧ t.console.poller.isEnabled = true)

theorem applied_takeReports (d : Desk) :
    Applied { d with console := { d.console with runner := d.console.runner.drain.2 } } d.takeReports
      d.console.runner.reports :=
  (applied_foldl _ d.console.runner.reports).onFront
    (fun f => { f with pendingTasks := d.console.runner.drain.2.pending }) (fun _ => rfl) fun _ => rfl

/-- Away from the booking view the poller is off afterwards. -/
theorem handled_leavePolling (d : Desk) (now : Int) :
    Handled d (d.leavePolling now) ∧ (d.leavePolling now).store = d.store ∧
      (d.leavePolling now).console.runner = d.console.runner ∧
      (d.leavePolling now).console.front.mode = d.console.front.mode ∧
      (d.leavePolling now).console.front.effectiveMode = d.console.front.effectiveMode ∧
      ((d.leavePolling now).console.poller.isEnabled = true → d.console.front.effectiveMode = .booking) := by
  rw [leavePolling]
  split
  · exact ⟨handled_setPolling d false now, rfl, rfl, rfl, rfl, fun h => by cases h⟩
  · next hstay =>
    refine ⟨handled_of_console rfl rfl rfl, rfl, rfl, rfl, rfl, fun h => ?_⟩
    simpa [h] using hstay

/-- A poll is handed in when one is due and none is out, with a ticket of the present generation. -/
theorem firePoll_cases (d : Desk) (now : Int) :
    (d.firePoll now = { d with console := { d.console with poller := (d.console.poller.due now).2 } }) ∨
    (d.console.pollInFlight = false ∧ d.console.poller.isEnabled = true ∧
      d.firePoll now =
        ({ d with console := { d.console with
            poller := (d.console.poller.due now).2
            pollInFlight := true } } : Desk).submit (.poll ⟨d.console.poller.generation⟩)) := by
  rw [firePoll]
  dsimp only
  split
  · next hdue =>
    refine Or.inr ⟨by simpa using hdue.2, Poller.isEnabled_of_due hdue.1, ?_⟩
    rw [Poller.ticket, Poller.generation_due]
  · exact Or.inl rfl

theorem ticked_tick (d : Desk) (now : Int) : Ticked d (d.tick now) := by
  have htaken := applied_takeReports d
  obtain ⟨hleft, hstore, hrunner, hmode, heffective, hbooking⟩ := handled_leavePolling d.takeReports now
  have hmoved : d.console.poller.Moved (d.takeReports.leavePolling now).console.poller := htaken.poller ▸ hleft.poller
  have hflag := hleft.inFlight.trans htaken.inFlight
  rw [tick]
  rcases firePoll_cases (d.takeReports.leavePolling now) now with h | ⟨hout, hon, h⟩
  · rw [h]
    exact {
      store := hstore.trans htaken.store
      mode := hmode.trans htaken.mode
      effectiveMode := heffective.trans htaken.effectiveMode
      poller := hmoved.due now
      booking := fun hon => heffective.trans (hbooking ((Poller.isEnabled_due _ now).symm.trans hon))
      runner := Or.inl ⟨hrunner.trans htaken.runner, hflag⟩ }
  · rw [h]
    refine {
      store := hstore.trans htaken.store
      mode := hmode.trans htaken.mode
      effectiveMode := heffective.trans htaken.effectiveMode
      poller := hmoved.due now
      booking := fun _ => heffective.trans (hbooking hon)
      runner := Or.inr ⟨?_, hflag.symm.trans hout, rfl, (Poller.isEnabled_due _ now).trans hon⟩ }
    simp only [submit, hrunner, htaken.runner, Poller.generation_due]

/-! ### The worker -/

/-- What an event of the worker leaves: the tasks that are out are the same, in the same order. -/
structure Worked (d t : Desk) : Prop where
  front : t.console.front = d.console.front
  poller : t.console.poller = d.console.poller
  inFlight : t.console.pollInFlight = d.console.pollInFlight
  names : t.console.runner.names = d.console.runner.names
  pending : t.console.runner.pending = d.console.runner.pending

theorem worked_after (c : Config) (d : Desk) {e : Event} (h : e.isFront = false) : Worked d (d.after c e) := by
  cases e with
  | key e now m => cases h
  | tick now => cases h
  | begin =>
    refine ⟨rfl, rfl, rfl, Runner.names_begin c _ _, ?_⟩
    simp only [after, Runner.begin]
    split <;> rfl
  | work reply moment clock =>
    simp only [after]
    split
    · next hrunning => exact ⟨rfl, rfl, rfl, by simp [withWork, Runner.names, hrunning], rfl⟩
    · exact ⟨rfl, rfl, rfl, rfl, rfl⟩
  | report =>
    refine ⟨rfl, rfl, rfl, Runner.names_finish _, ?_⟩
    simp only [after, Runner.finish]
    split <;> rfl

/-- An event switches the poller once at most. -/
theorem moved_after (c : Config) (d : Desk) (e : Event) : d.console.poller.Moved (d.after c e).console.poller := by
  cases e with
  | key e now m => exact (handled_handleKey d e now m).poller
  | tick now => exact (ticked_tick d now).poller
  | begin => exact .refl _
  | work reply moment clock => exact (worked_after c d (e := .work reply moment clock) rfl).poller ▸ .refl _
  | report => exact .refl _

/-! ### What is handed in and taken back -/

section Submitted

variable {c : Config} {d : Desk} {e : Event}

theorem submitted_of_same (h : (d.after c e).console.runner.queue = d.console.runner.queue) :
    d.submitted c e = [] := by
  rw [submitted, h, List.drop_length, ite_self]

theorem submitted_of_concat {t : Task} (he : e.isFront = true)
    (h : (d.after c e).console.runner.queue = d.console.runner.queue ++ [t]) : d.submitted c e = [t] := by
  rw [submitted, if_pos he, h, List.drop_left]

/-- A key hands in nothing or one task, which is no poll. -/
theorem submitted_key (c : Config) (d : Desk) (e : KeyEvent) (now : Int) (m : Moment) :
    (d.submitted c (.key e now m) = [] ∧ (d.after c (.key e now m)).console.runner = d.console.runner) ∨
    ∃ t, t.isPoll = false ∧ d.submitted c (.key e now m) = [t] ∧
      (d.after c (.key e now m)).console.runner = d.console.runner.submit t := by
  rcases (handled_handleKey d e now m).runner with h | ⟨t, ht, h⟩
  · exact Or.inl ⟨submitted_of_same (congrArg Runner.queue h), h⟩
  · exact Or.inr ⟨t, ht, submitted_of_concat rfl (congrArg Runner.queue h), h⟩

theorem submitted_tick (c : Config) (d : Desk) (now : Int) :
    (d.submitted c (.tick now) = [] ∧ (d.after c (.tick now)).console.runner = d.console.runner.drain.2) ∨
    ∃ t, d.submitted c (.tick now) = [.poll t] ∧
      (d.after c (.tick now)).console.runner = d.console.runner.drain.2.submit (.poll t) := by
  rcases (ticked_tick d now).runner with ⟨h, -⟩ | ⟨h, -, -, -⟩
  · exact Or.inl ⟨submitted_of_same (by simp only [after, h, Runner.drain]), h⟩
  · exact Or.inr ⟨_, submitted_of_concat rfl (by simp only [after, h, Runner.drain, Runner.submit]), h⟩

theorem submitted_worker (c : Config) (d : Desk) (h : e.isFront = false) : d.submitted c e = [] := by
  rw [submitted, h]
  rfl

/-- Polls are handed in under the booking view, and only by a tick. -/
theorem booking_of_poll {d : Desk} {e : Event} {t : Ticket} (h : .poll t ∈ d.submitted c e) :
    (∃ now, e = .tick now) ∧ d.console.front.effectiveMode = .booking := by
  cases e with
  | key e now m =>
    rcases submitted_key c d e now m with ⟨hs, -⟩ | ⟨u, hu, hs, -⟩
    · simp [hs] at h
    · obtain rfl := List.mem_singleton.mp (hs ▸ h)
      cases hu
  | tick now =>
    have htick := ticked_tick d now
    refine ⟨⟨now, rfl⟩, htick.effectiveMode.symm.trans (htick.booking ?_)⟩
    rcases htick.runner with ⟨hr, -⟩ | ⟨-, -, -, hon⟩
    · rw [submitted_of_same (by simp only [after, hr, Runner.drain])] at h
      cases h
    · exact hon
  | begin => cases h
  | work reply moment clock => cases h
  | report => cases h

end Submitted

/-- The names of the tasks that are out, before an event and after it: what is handed in joins them at the
    end, and what is taken back leaves them at the front. -/
theorem names_after (c : Config) (d : Desk) (e : Event) :
    d.console.runner.names ++ (d.submitted c e).map Task.describe =
      (d.received e).map (·.task) ++ (d.after c e).console.runner.names := by
  cases e with
  | key e now m =>
    rcases submitted_key c d e now m with ⟨hs, h⟩ | ⟨t, -, hs, h⟩
    · simp [hs, h, received]
    · simp [hs, h, received, Runner.names_submit]
  | tick now =>
    have hdrain := Runner.names_drain d.console.runner
    rcases submitted_tick c d now with ⟨hs, h⟩ | ⟨t, hs, h⟩
    · simpa [hs, h, received, Runner.drain] using hdrain
    · rw [hs, h, Runner.names_submit, hdrain]
      simp [received, Runner.drain]
  | begin => rw [submitted_worker c d rfl, (worked_after c d (e := .begin) rfl).names]; simp [received]
  | work reply moment clock =>
    rw [submitted_worker c d rfl, (worked_after c d (e := .work reply moment clock) rfl).names]; simp [received]
  | report => rw [submitted_worker c d rfl, (worked_after c d (e := .report) rfl).names]; simp [received]

/-- Over a run, the tasks that were out and those that were handed in are, in order, those that were taken
    back and those that are out now. -/
theorem names_run (c : Config) (d : Desk) (es : List Event) :
    d.console.runner.names ++ (collect c (submitted c) d es).map Task.describe =
      (collect c received d es).map (·.task) ++ (d.run c es).console.runner.names := by
  induction es generalizing d with
  | nil => simp [collect, run_nil]
  | cons e es ih =>
    have hstep := names_after c d e
    have hrest := ih (d.after c e)
    rw [collect, collect, List.map_append, List.map_append, ← List.append_assoc, hstep, List.append_assoc, hrest,
      ← List.append_assoc]
    rfl

end Terminal.Desk

end TicketDesk
