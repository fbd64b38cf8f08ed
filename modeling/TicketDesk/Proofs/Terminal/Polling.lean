import TicketDesk.Proofs.Terminal.Moves
import TicketDesk.Proofs.Tickets

/-! # Polling in a run

At most one poll is out at any time, and it was handed in under the booking view. A ticket tells how often
the poller had been switched when it was given out, so as long as the switches of a run fit 64 bits a poll
that the worker lets past belongs to the polling that is still on, and once polling is off only the poll
that is past its check may still send its one request. -/

namespace TicketDesk.Terminal.Desk

variable {c : Config}

/-! ### The poll that is out -/

/-- One poll is out when the flag says so, and none when it does not. -/
def Flagged (d : Desk) : Prop :=
  d.console.runner.names.count Request.pollLabel = if d.console.pollInFlight then 1 else 0

theorem count_describe {t : Task} (h : t.isPoll = false) : [t.describe].count Request.pollLabel = 0 := by
  rw [List.count_eq_zero, List.mem_singleton]
  exact fun he => by simp [(t.describe_eq_pollLabel).mp he.symm] at h

theorem hasPoll_eq_false_iff {rs : List Report} :
    hasPoll rs = false ↔ (rs.map (·.task)).count Request.pollLabel = 0 := by
  simp [hasPoll, List.count_eq_zero]

theorem flagged_start (s : Store) (ms : Nat) : (start s ms).Flagged := rfl

/-- Once the reports are taken back, a poll is out when one was and its report was not among them. -/
theorem count_drain {d : Desk} (h : d.Flagged) : d.console.runner.drain.2.names.count Request.pollLabel =
    if d.console.pollInFlight && !hasPoll d.console.runner.reports then 1 else 0 := by
  have hnames := congrArg (List.count Request.pollLabel) (Runner.names_drain d.console.runner)
  rw [List.count_append, show d.console.runner.names.count Request.pollLabel = _ from h,
    show d.console.runner.drain.1 = d.console.runner.reports from rfl] at hnames
  cases hback : hasPoll d.console.runner.reports with
  | false =>
    rw [hasPoll_eq_false_iff.mp hback, Nat.zero_add] at hnames
    rw [← hnames, Bool.not_false, Bool.and_true]
  | true =>
    have hpos : (d.console.runner.reports.map (·.task)).count Request.pollLabel ≠ 0 := fun hzero => by
      simp [hasPoll_eq_false_iff.mpr hzero] at hback
    rw [Bool.not_true, Bool.and_false, if_neg (by decide)]
    split at hnames <;> omega

/-- Whatever happens, the flag tells whether a poll is out. -/
theorem flagged_after {d : Desk} (h : d.Flagged) (e : Event) : (d.after c e).Flagged := by
  cases e with
  | key e now m =>
    rw [Flagged, show (d.after c (.key e now m)).console.pollInFlight = _ from (handled_handleKey d e now m).inFlight]
    rcases submitted_key c d e now m with ⟨-, hr⟩ | ⟨t, ht, -, hr⟩
    · rw [hr]
      exact h
    · rw [hr, Runner.names_submit, List.count_append, count_describe ht]
      exact h
  | tick now =>
    have hcount := count_drain h
    rcases (ticked_tick d now).runner with ⟨hr, hf⟩ | ⟨hr, hout, hf, -⟩
    · rw [Flagged, show (d.after c (.tick now)).console.runner = _ from hr,
        show (d.after c (.tick now)).console.pollInFlight = _ from hf]
      exact hcount
    · rw [hout] at hcount
      rw [Flagged, show (d.after c (.tick now)).console.runner = _ from hr,
        show (d.after c (.tick now)).console.pollInFlight = _ from hf, Runner.names_submit, List.count_append, hcount]
      rfl
  | begin => exact (congrArg _ (worked_after c d (e := .begin) rfl).names).trans h
  | work reply moment clock =>
    have hw := worked_after c d (e := .work reply moment clock) rfl
    rw [Flagged, hw.names, hw.inFlight]
    exact h
  | report =>  exact (congrArg _ (worked_after c d (e := .report) rfl).names).trans h

theorem flagged_run {d : Desk} (h : d.Flagged) (es : List Event) : (d.run c es).Flagged := by
  induction es using List.reverseRecOn with
  | nil => exact h
  | append_singleton es e ih =>
    rw [run_concat]
    exact flagged_after ih e

theorem count_map_describe (ts : List Task) : (ts.map Task.describe).count Request.pollLabel = ts.countP Task.isPoll := by
  rw [List.count_eq_countP, List.countP_map]
  congr 1
  funext t
  rw [Function.comp_apply, Bool.eq_iff_iff, beq_iff_eq]
  exact t.describe_eq_pollLabel

theorem count_map_task (rs : List Report) :
    (rs.map (·.task)).count Request.pollLabel = rs.countP fun r => r.task = Request.pollLabel := by
  rw [List.count_eq_countP, List.countP_map]
  rfl

/-- Of the polls handed in, all were taken back but for the one that the flag tells of. -/
theorem countP_submitted (s : Store) (ms : Nat) (es : List Event) :
    (collect c (submitted c) (start s ms) es).countP Task.isPoll =
      ((collect c received (start s ms) es).countP fun r => r.task = Request.pollLabel) +
        if ((start s ms).run c es).console.pollInFlight then 1 else 0 := by
  have hnames := names_run c (start s ms) es
  rw [show (start s ms).console.runner.names = [] from rfl, List.nil_append] at hnames
  rw [← count_map_describe, hnames, List.count_append, count_map_task]
  congr 1
  exact flagged_run (flagged_start s ms) es

/-! ### Switches -/

/-- How often a run switches the poller. -/
def switches (c : Config) (d : Desk) (es : List Event) : Nat := (collect c (switching c) d es).length

theorem switches_append {d : Desk} {es es' : List Event} :
    switches c d (es ++ es') = switches c d es + switches c (d.run c es) es' := by
  rw [switches, collect_append, List.length_append]
  rfl

theorem switches_concat {d : Desk} {es : List Event} {e : Event} :
    switches c d (es ++ [e]) = switches c d es + ((d.run c es).switching c e).length := by
  rw [switches, collect_concat, List.length_append]
  rfl

theorem generation_after (c : Config) (d : Desk) (e : Event) :
    (d.after c e).console.poller.generation = d.console.poller.generation + UInt64.ofNat (d.switching c e).length := by
  rw [switching]
  split
  · next h => simp [h]
  · next h =>
    rcases moved_after c d e with ⟨hsame, -⟩ | hnext
    · exact absurd hsame h
    · exact hnext

theorem isEnabled_after {d : Desk} {e : Event} (h : d.switching c e = []) :
    (d.after c e).console.poller.isEnabled = d.console.poller.isEnabled := by
  rcases moved_after c d e with ⟨-, hsame⟩ | hnext
  · exact hsame
  -- A switch is seen in the generation, since adding one never gives the same word.
  · have hne : d.console.poller.generation + 1 ≠ d.console.poller.generation := by
      intro heq
      have hnat := congrArg UInt64.toNat heq
      have hlt := d.console.poller.generation.toNat_lt
      simp only [UInt64.toNat_add, UInt64.toNat_one] at hnat
      omega
    rw [switching, hnext, if_neg hne] at h
    cases h

/-- The generation of the poller counts the switches. -/
theorem generation_run (c : Config) (d : Desk) (es : List Event) :
    (d.run c es).console.poller.generation = d.console.poller.generation + UInt64.ofNat (switches c d es) := by
  induction es using List.reverseRecOn with
  | nil => simp [switches, collect, run_nil]
  | append_singleton es e ih =>
    rw [run_concat, generation_after, ih, switches_concat, UInt64.ofNat_add, UInt64.add_assoc]

/-- Without a switch the poller stays on, or off. -/
theorem isEnabled_run {d : Desk} {es : List Event} (h : switches c d es = 0) :
    (d.run c es).console.poller.isEnabled = d.console.poller.isEnabled := by
  induction es using List.reverseRecOn with
  | nil => rfl
  | append_singleton es e ih =>
    rw [switches_concat] at h
    rw [run_concat, isEnabled_after (List.length_eq_zero_iff.mp (by omega)), ih (by omega)]

/-- Fewer switches than there are generations lead back to the same one only when there are none. -/
theorem switches_eq_zero {d : Desk} {es : List Event} (hlt : switches c d es < UInt64.size)
    (h : (d.run c es).console.poller.generation = d.console.poller.generation) : switches c d es = 0 := by
  rw [generation_run] at h
  exact (Poller.add_generations_eq_self_iff hlt).mp h

/-! ### Tickets -/

/-- A queued poll was handed in by a tick of the run with a ticket of the generation then, while the poller
    was on, and no other poll was handed in since. -/
def Issued (c : Config) (d : Desk) (es : List Event) (t : Ticket) : Prop :=
  ∃ es₁ now es₂, es = es₁ ++ .tick now :: es₂ ∧ .poll t ∈ (d.run c es₁).submitted c (.tick now) ∧
    (∀ u, .poll u ∉ collect c (submitted c) ((d.run c es₁).after c (.tick now)) es₂) ∧
    t.issued = ((d.run c es₁).after c (.tick now)).console.poller.generation ∧
    ((d.run c es₁).after c (.tick now)).console.poller.isEnabled = true

theorem Issued.concat {d : Desk} {es : List Event} {t : Ticket} (h : Issued c d es t) {e : Event}
    (he : ∀ u, .poll u ∉ (d.run c es).submitted c e) : Issued c d (es ++ [e]) t := by
  obtain ⟨es₁, now, es₂, rfl, hmem, hnone, hgen, hon⟩ := h
  refine ⟨es₁, now, es₂ ++ [e], by simp, hmem, fun u => ?_, hgen, hon⟩
  rw [collect_concat, List.mem_append, not_or]
  rw [run_append] at he
  exact ⟨hnone u, he u⟩

theorem mem_queue_of_worker {d : Desk} {e : Event} (h : e.isFront = false) {t : Task}
    (ht : t ∈ (d.after c e).console.runner.queue) : t ∈ d.console.runner.queue := by
  cases e with
  | key e now m => cases h
  | tick now => cases h
  | begin =>
    simp only [after, Runner.begin] at ht
    split at ht
    · next hqueue => exact hqueue ▸ List.mem_cons_of_mem _ ht
    · exact ht
  | work reply moment clock =>
    simp only [after] at ht
    split at ht <;> exact ht
  | report =>
    simp only [after, Runner.finish] at ht
    split at ht <;> exact ht

theorem count_names_pos {r : Runner} {t : Ticket} (h : .poll t ∈ r.queue) : 0 < r.names.count Request.pollLabel := by
  rw [List.count_pos_iff, Runner.names, List.mem_append, List.mem_append]
  exact Or.inr (Or.inr (List.mem_map_of_mem (f := Task.describe) h))

/-- The polls in the queue after an event were there before, or were handed in by it when none was out. -/
theorem poll_mem_queue_after {d : Desk} (h : d.Flagged) {e : Event} {t : Ticket}
    (ht : .poll t ∈ (d.after c e).console.runner.queue) :
    (.poll t ∈ d.console.runner.queue ∧ ∀ u, .poll u ∉ d.submitted c e) ∨
    ∃ now, e = .tick now ∧ .poll t ∈ d.submitted c (.tick now) ∧
      t.issued = (d.after c (.tick now)).console.poller.generation ∧
      (d.after c (.tick now)).console.poller.isEnabled = true := by
  cases e with
  | key e now m =>
    refine Or.inl ⟨?_, fun u hu => by cases (booking_of_poll hu).1.choose_spec⟩
    rcases submitted_key c d e now m with ⟨-, hr⟩ | ⟨u, hu, -, hr⟩
    · exact hr ▸ ht
    · rw [hr, Runner.submit, List.mem_append, List.mem_singleton] at ht
      rcases ht with ht | rfl
      · exact ht
      · cases hu
  | tick now =>
    have hqueue : d.console.runner.drain.2.queue = d.console.runner.queue := rfl
    rcases (ticked_tick d now).runner with ⟨hr, -⟩ | ⟨hr, hout, -, hon⟩
    · have hnone : d.submitted c (.tick now) = [] := submitted_of_same (by simp only [after, hr, hqueue])
      simp only [after, hr, hqueue] at ht
      exact Or.inl ⟨ht, fun u hu => by simp [hnone] at hu⟩
    · have hone : d.submitted c (.tick now) = [.poll ⟨(d.tick now).console.poller.generation⟩] :=
        submitted_of_concat rfl (by simp only [after, hr, Runner.submit, hqueue])
      simp only [after, hr, Runner.submit, List.mem_append, List.mem_singleton] at ht
      rcases ht with ht | ht
      -- A poll that was queued already was out, and then none is handed in.
      · have hpos := count_names_pos ht
        rw [count_drain h, hout] at hpos
        cases hpos
      · obtain rfl := Task.poll.inj ht
        exact Or.inr ⟨now, rfl, by simp [hone], rfl, hon⟩
  | begin => exact Or.inl ⟨mem_queue_of_worker rfl ht, fun u hu => by cases hu⟩
  | work reply moment clock =>
    exact Or.inl ⟨mem_queue_of_worker (e := .work reply moment clock) rfl ht, fun u hu => by cases hu⟩
  | report => exact Or.inl ⟨mem_queue_of_worker rfl ht, fun u hu => by cases hu⟩

/-- Every poll in the queue was handed in by the run, as the last one so far. -/
theorem issued_run {d : Desk} (h : d.Flagged) (hqueue : d.console.runner.queue = []) (es : List Event) :
    ∀ t, .poll t ∈ (d.run c es).console.runner.queue → Issued c d es t := by
  induction es using List.reverseRecOn with
  | nil => simp [run_nil, hqueue]
  | append_singleton es e ih =>
    intro t ht
    rw [run_concat] at ht
    rcases poll_mem_queue_after (flagged_run h es) ht with ⟨ht, hnone⟩ | ⟨now, rfl, hmem, hgen, hon⟩
    · exact (ih t ht).concat hnone
    · exact ⟨es, now, [], rfl, hmem, by simp [collect], hgen, hon⟩

/-- A poll with a current ticket was handed in since the last switch, and the poller is on. -/
theorem isEnabled_of_isCurrent {d : Desk} {es : List Event} (hlt : switches c d es < UInt64.size) {t : Ticket}
    (h : Issued c d es t) (hcurrent : (d.run c es).console.poller.isCurrent t = true) :
    (d.run c es).console.poller.isEnabled = true ∧
      ∃ es₁ now es₂, es = es₁ ++ .tick now :: es₂ ∧ .poll t ∈ (d.run c es₁).submitted c (.tick now) ∧
        (∀ u, .poll u ∉ collect c (submitted c) ((d.run c es₁).after c (.tick now)) es₂) ∧
        switches c ((d.run c es₁).after c (.tick now)) es₂ = 0 := by
  obtain ⟨es₁, now, es₂, rfl, hmem, hnone, hgen, hon⟩ := h
  have hrun : d.run c (es₁ ++ .tick now :: es₂) = ((d.run c es₁).after c (.tick now)).run c es₂ := by
    rw [run_append]
    rfl
  rw [show es₁ ++ .tick now :: es₂ = (es₁ ++ [.tick now]) ++ es₂ by simp, switches_append, run_concat] at hlt
  rw [hrun, Poller.isCurrent, beq_iff_eq, hgen] at hcurrent
  have hzero := switches_eq_zero (by omega) hcurrent
  rw [hrun, isEnabled_run hzero]
  exact ⟨hon, es₁, now, es₂, rfl, hmem, hnone, hzero⟩

/-! ### Requests of polls -/

/-- A poll under way sends at most so many further requests. -/
def Budget (n : Nat) (d : Desk) : Prop :=
  ∀ work, d.console.runner.running = some (Request.pollLabel, work) → work.SendsAtMost n

theorem Budget.mono {n k : Nat} {d : Desk} (h : Budget n d) (hle : n ≤ k) : Budget k d :=
  fun work hwork => (h work hwork).mono hle

theorem Budget.congr {n : Nat} {d t : Desk} (h : Budget n d) (hr : t.console.runner.running = d.console.runner.running) :
    Budget n t :=
  fun work hwork => h work (hr.symm.trans hwork)

/-- The worker may let a poll past its check. -/
def LetsPast (d : Desk) (t : Ticket) : Prop :=
  d.console.runner.running = none ∧ d.console.runner.queue.head? = some (.poll t) ∧
    d.console.poller.isCurrent t = true

theorem budget_begin {n : Nat} {d : Desk} (h : Budget n d) (hpast : ∀ t, d.LetsPast t → 0 < n) :
    Budget n (d.after c .begin) := by
  intro work hwork
  simp only [after, Runner.begin] at hwork
  split at hwork
  · next t rest hrunning hqueue =>
    obtain ⟨hname, rfl⟩ := Prod.mk.inj (Option.some.inj hwork)
    cases t with
    | poll ticket =>
      refine (Task.sendsAtMost_work c _ ticket).mono ?_
      split
      · next hcurrent => exact hpast ticket ⟨hrunning, by rw [hqueue]; rfl, hcurrent⟩
      · exact Nat.zero_le n
    | _ => cases (Task.describe_eq_pollLabel _).mp hname
  · exact h work hwork

theorem budget_work {n : Nat} {d : Desk} (h : Budget n d) (reply : Reply) (moment : Moment) (clock : Int) :
    ∃ k, n = (d.pollRequest (.work reply moment clock)).length + k ∧ Budget k (d.after c (.work reply moment clock)) := by
  cases hrunning : d.console.runner.running with
  | none => exact ⟨n, by simp [pollRequest, hrunning], h.congr (by simp only [after, hrunning])⟩
  | some task =>
    obtain ⟨name, work⟩ := task
    have hafter : (d.after c (.work reply moment clock)).console.runner.running =
        some (name, (work.step (.saying reply moment clock) d.store ()).1) := by
      simp only [after, hrunning, withWork]
    by_cases hname : name = Request.pollLabel
    · subst hname
      obtain ⟨hkeep, hsend⟩ := (h work hrunning).step (.saying reply moment clock) d.store ()
      cases work with
      | send wire next =>
        obtain ⟨k, rfl, hk⟩ := hsend wire next rfl
        refine ⟨k, by simp [pollRequest, hrunning, Nat.add_comm], fun v hv => ?_⟩
        obtain ⟨-, rfl⟩ := Prod.mk.inj (Option.some.inj (hafter.symm.trans hv))
        exact hk
      | _ =>
        refine ⟨n, by simp [pollRequest, hrunning], fun v hv => ?_⟩
        obtain ⟨-, rfl⟩ := Prod.mk.inj (Option.some.inj (hafter.symm.trans hv))
        exact hkeep
    · refine ⟨n, ?_, fun v hv => absurd (Prod.mk.inj (Option.some.inj (hafter.symm.trans hv))).1 hname⟩
      cases work <;> simp [pollRequest, hrunning, hname]

/-- An event makes a poll send only what it still may. -/
theorem budget_after {n : Nat} {d : Desk} (h : Budget n d) {e : Event} (hpast : e = .begin → ∀ t, d.LetsPast t → 0 < n) :
    ∃ k, n = (d.pollRequest e).length + k ∧ Budget k (d.after c e) := by
  cases e with
  | key e now m =>
    refine ⟨n, (Nat.zero_add n).symm, h.congr ?_⟩
    rcases submitted_key c d e now m with ⟨-, hr⟩ | ⟨t, -, -, hr⟩
    · rw [hr]
    · rw [hr, Runner.submit]
  | tick now =>
    refine ⟨n, (Nat.zero_add n).symm, h.congr ?_⟩
    rcases submitted_tick c d now with ⟨-, hr⟩ | ⟨t, -, hr⟩
    · rw [hr, Runner.drain]
    · rw [hr, Runner.submit, Runner.drain]
  | begin => exact ⟨n, (Nat.zero_add n).symm, budget_begin h (hpast rfl)⟩
  | work reply moment clock => exact budget_work h reply moment clock
  | report =>
    refine ⟨n, (Nat.zero_add n).symm, fun work hwork => ?_⟩
    simp only [after, Runner.finish] at hwork
    split at hwork
    · cases hwork
    · exact h work hwork

theorem budget_run {d : Desk} (h : Budget 1 d) (es : List Event) : Budget 1 (d.run c es) := by
  induction es using List.reverseRecOn with
  | nil => exact h
  | append_singleton es e ih =>
    rw [run_concat]
    obtain ⟨k, hk, hbudget⟩ := budget_after (c := c) ih (e := e) fun _ _ _ => Nat.one_pos
    exact hbudget.mono (by omega)

/-- While polling stays off, polls send only what the one under way still may. -/
theorem length_pollRequests_le {d : Desk} (hflag : d.Flagged) (hqueue : d.console.runner.queue = []) {es es' : List Event}
    {n : Nat} (hlt : switches c d (es ++ es') < UInt64.size)
    (hoff : ∀ es₁ es₂, es' = es₁ ++ es₂ → (d.run c (es ++ es₁)).console.poller.isEnabled = false)
    (hbudget : Budget n (d.run c es)) : (collect c pollRequest (d.run c es) es').length ≤ n := by
  induction es' generalizing es n with
  | nil => exact Nat.zero_le n
  | cons e es' ih =>
    have hpast : e = .begin → ∀ t, (d.run c es).LetsPast t → 0 < n := by
      rintro - t ⟨-, hhead, hcurrent⟩
      have hissued := issued_run hflag hqueue es t (List.mem_of_mem_head? hhead)
      rw [switches_append] at hlt
      have hon := (isEnabled_of_isCurrent (by omega) hissued hcurrent).1
      have hno := hoff [] (e :: es') rfl
      rw [List.append_nil, hon] at hno
      cases hno
    -- The induction goes on from the next state with the event moved to the run before it.
    obtain ⟨k, rfl, hk⟩ := budget_after hbudget hpast
    have hlt' : switches c d ((es ++ [e]) ++ es') < UInt64.size := by simpa using hlt
    have hoff' : ∀ es₁ es₂, es' = es₁ ++ es₂ → (d.run c ((es ++ [e]) ++ es₁)).console.poller.isEnabled = false :=
      fun es₁ es₂ h => by simpa using hoff (e :: es₁) es₂ (by rw [h]; rfl)
    have hrest := ih hlt' hoff' (run_concat ▸ hk)
    rw [run_concat] at hrest
    rw [collect, List.length_append]
    omega

/-! ### The whole of it -/

/-- Whether the worker is at a poll. -/
def isPolling (d : Desk) : Bool := d.console.runner.running.any fun task => task.1 = Request.pollLabel

/-- What holds of polling in a run from a start. -/
structure SafelyPolled (c : Config) (d : Desk) (es : List Event) : Prop where
  /-- Polls never stack: those handed in and not yet taken back are one when the flag says so, and else none. -/
  outstanding : (collect c (submitted c) d es).countP Task.isPoll =
    ((collect c received d es).countP fun r => r.task = Request.pollLabel) +
      if (d.run c es).console.pollInFlight then 1 else 0
  /-- A tick hands in a poll only under the booking view. -/
  booking : ∀ now t, .poll t ∈ (d.run c es).submitted c (.tick now) →
    (d.run c es).console.front.effectiveMode = .booking
  /-- A poll that is let past its check was the last one handed in, the poller is on, and it was not switched
      since. -/
  current : ∀ t, (d.run c es).LetsPast t → (d.run c es).console.poller.isEnabled = true ∧
    ∃ es₁ now es₂, es = es₁ ++ .tick now :: es₂ ∧ .poll t ∈ (d.run c es₁).submitted c (.tick now) ∧
      (∀ u, .poll u ∉ collect c (submitted c) ((d.run c es₁).after c (.tick now)) es₂) ∧
      switches c ((d.run c es₁).after c (.tick now)) es₂ = 0
  /-- While polling stays off, at most one poll sends a request, the one that is past its check already. -/
  stopped : ∀ es₁ es₂, es = es₁ ++ es₂ →
    (∀ es₃ es₄, es₂ = es₃ ++ es₄ → (d.run c (es₁ ++ es₃)).console.poller.isEnabled = false) →
    (collect c pollRequest (d.run c es₁) es₂).length ≤ if (d.run c es₁).isPolling then 1 else 0

theorem safelyPolled_run (s : Store) (ms : Nat) {es : List Event} (hlt : switches c (start s ms) es < UInt64.size) :
    SafelyPolled c (start s ms) es where
  outstanding := countP_submitted s ms es
  booking _ _ h := (booking_of_poll h).2
  current t ht := isEnabled_of_isCurrent hlt
    (issued_run (flagged_start s ms) rfl es t (List.mem_of_mem_head? ht.2.1)) ht.2.2
  stopped es₁ es₂ he hoff := by
    subst he
    refine length_pollRequests_le (flagged_start s ms) rfl hlt hoff ?_
    split
    · exact budget_run (fun work hwork => by cases hwork) es₁
    · next hidle => exact fun work hwork => absurd (by simp [isPolling, hwork]) hidle

/-- Polling is switched on in the booking view, and a second later a poll is let past. -/
theorem safelyPolled_first_poll :
    let s : Store := ⟨⟨some ⟨"kim", "mock-1"⟩, {}, .empty, .initial, .initial⟩, .unwritable, []⟩
    let es : List Event := [.key { code := .char '4' } 0 ⟨0, 0, ""⟩, .key { code := .char 'p' } 0 ⟨0, 0, ""⟩, .tick 1000]
    ((start s 1000).run .initial es).LetsPast ⟨1⟩ ∧ switches .initial (start s 1000) es = 1 ∧
      SafelyPolled .initial (start s 1000) es := by
  intro s es
  have hswitches : switches .initial (start s 1000) es = 1 := by decide
  exact ⟨⟨rfl, rfl, rfl⟩, hswitches, safelyPolled_run s 1000 (by rw [hswitches]; decide)⟩

end TicketDesk.Terminal.Desk
