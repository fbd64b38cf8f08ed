import TicketDesk.Proofs.History
import TicketDesk.Proofs.Store.Writes
import TicketDesk.Proofs.Terminal.Editing
import TicketDesk.Proofs.Terminal.Edits
import TicketDesk.Proofs.Terminal.Invariant

/-! # What a key replays

A key replays the entry that the cursor is on in the history as it is when the key is pressed. Until then the worker and
the ticks leave the view and the cursor where they are, but what the worker records comes to stand before the entries
that there were, so the cursor is then on another entry. -/

namespace TicketDesk

/-! ### What background work records -/

theorem History.entries_run_of_no_clear {h : History} (hbounded : h.entries.length ≤ capacity) {cs : List Change}
    (hclear : .clear ∉ cs) :
    (h.run cs).entries = ((cs.filterMap Change.entry?).reverse ++ h.entries).take capacity := by
  have hwhole : h = ofEntries h.entries := congrArg History.mk (List.take_of_length_le hbounded).symm
  conv_lhs => rw [hwhole]
  rw [entries_run, unbounded_of_no_clear _ hclear]

namespace Terminal.Desk

/-- The updates that an event of the worker makes. -/
def made (d : Desk) : Event → List Update
  | .work _ _ _ => d.console.runner.running.toList.flatMap fun task => task.2.updates
  | _ => []

/-- The entries that the events of a run record, in order. -/
def recorded (c : Config) (d : Desk) (es : List Event) : List Entry :=
  ((collect c made d es).filterMap Update.logChange?).filterMap History.Change.entry?

section

variable {c : Config} {d : Desk} {e : Event} {es : List Event}

theorem store_after (he : e.isKey = false) : (d.after c e).store = d.store.updateAll (d.made e) := by
  cases e with
  | key k now m => cases he
  | tick now => exact (ticked_tick d now).store
  | begin => rfl
  | work reply moment clock =>
    cases hrunning : d.console.runner.running with
    | none => simp only [after, made, hrunning]; rfl
    | some task =>
      obtain ⟨name, work⟩ := task
      rw [after_work hrunning, made, hrunning]
      simp [withWork]
  | report => rfl

theorem store_run (hes : ∀ e ∈ es, e.isKey = false) :
    (d.run c es).store = d.store.updateAll (collect c made d es) := by
  induction es generalizing d with
  | nil => rfl
  | cons e es ih =>
    rw [List.forall_mem_cons] at hes
    have hrest := ih (d := d.after c e) hes.2
    rw [collect, Store.updateAll_append, ← store_after hes.1]
    exact hrest

theorem Sound.background_made (h : d.Sound) : ∀ u ∈ collect c made d es, u.IsBackground := by
  induction es generalizing d with
  | nil => exact fun _ hu => by cases hu
  | cons e es ih =>
    intro u hu
    rcases List.mem_append.mp hu with hu | hu
    · cases e with
      | work reply moment clock =>
        obtain ⟨⟨name, work⟩, hrunning, hu⟩ := List.mem_flatMap.mp hu
        have hwork := h.background name work (Option.mem_toList.mp hrunning)
        exact (hwork.next ⟨d.store.state, reply, moment, clock⟩).2 u hu
      | _ => cases hu
    · exact ih (h.after c e) u hu

/-- Without a key, what was recorded stands before the entries that there were. -/
theorem Sound.entries_run (h : d.Sound) (hes : ∀ e ∈ es, e.isKey = false) :
    (d.run c es).store.state.history.entries =
      ((d.recorded c es).reverse ++ d.store.state.history.entries).take History.capacity := by
  have hclear : .clear ∉ (collect c made d es).filterMap Update.logChange? := by
    intro hmem
    obtain ⟨u, hu, hchange⟩ := List.mem_filterMap.mp hmem
    have hbackground := h.background_made u hu
    cases u with
    | clearHistory => exact hbackground
    | _ => cases hchange
  rw [store_run hes, Store.history_updateAll, History.entries_run_of_no_clear h.bounded hclear]
  rfl

end

/-! ### The cursor -/

section

variable {c : Config} {d : Desk} {e : Event} {es : List Event}

/-- A cursor that is inside its list is not moved to keep it there. -/
theorem clampHistory_of_valid {f : Front} {n : Nat} (h : f.historySelection = 0 ∨ f.historySelection < n) :
    (f.clampHistory n).historySelection = f.historySelection := by
  rw [Front.clampHistory]
  split
  · show n - 1 = f.historySelection
    omega
  · rfl

theorem cursor_applyReport (h : d.console.front.historySelection = 0 ∨ d.console.front.historySelection < d.historyLength)
    (r : Report) : (d.applyReport r).console.front.historySelection = d.console.front.historySelection := by
  unfold applyReport
  dsimp only
  split
  · split <;> rfl
  · refine (clampHistory_of_valid ?_).trans ?_
    · split <;> exact h
    · split <;> rfl

theorem cursor_foldl (h : d.console.front.historySelection = 0 ∨ d.console.front.historySelection < d.historyLength)
    (rs : List Report) : (rs.foldl applyReport d).console.front.historySelection = d.console.front.historySelection := by
  induction rs generalizing d with
  | nil => rfl
  | cons r rs ih =>
    have hcursor := cursor_applyReport h r
    have hlength : (d.applyReport r).historyLength = d.historyLength := by
      rw [historyLength, (applied_applyReport d r).store]
      rfl
    exact (ih (by rw [hcursor, hlength]; exact h)).trans hcursor

/-- The history never becomes shorter under the cursor, so a tick leaves it where it is. -/
theorem Sound.cursor_tick (h : d.Sound) (now : Int) :
    (d.tick now).console.front.historySelection = d.console.front.historySelection := by
  have htaken : d.takeReports.console.front.historySelection = d.console.front.historySelection :=
    cursor_foldl (d := { d with console := { d.console with runner := d.console.runner.drain.2 } }) h.front.cursor
      d.console.runner.reports
  exact (congrArg Front.historySelection (bare_tick d now)).trans htaken

theorem Sound.cursor_after (h : d.Sound) (c : Config) (he : e.isKey = false) :
    (d.after c e).console.front.historySelection = d.console.front.historySelection := by
  cases e with
  | key k now m => cases he
  | tick now => exact h.cursor_tick now
  | _ => exact congrArg Front.historySelection (worked_after c d rfl).front

theorem Sound.cursor_run (h : d.Sound) (hes : ∀ e ∈ es, e.isKey = false) :
    (d.run c es).console.front.historySelection = d.console.front.historySelection := by
  induction es generalizing d with
  | nil => rfl
  | cons e es ih =>
    rw [List.forall_mem_cons] at hes
    exact (ih (h.after c e) hes.2).trans (h.cursor_after c hes.1)

theorem still_run (hes : ∀ e ∈ es, e.isKey = false) : (d.run c es).console.front.still = d.console.front.still := by
  induction es generalizing d with
  | nil => rfl
  | cons e es ih =>
    rw [List.forall_mem_cons] at hes
    exact (ih (d := d.after c e) hes.2).trans (still_after c d hes.1)

end

/-! ### The key -/

section

variable {c : Config} {d t : Desk} {k : KeyEvent} {now : Int} {m : Moment}

/-- Nothing was handed in, or one task that is no replay. -/
def NoReplay (d t : Desk) : Prop :=
  t.console.runner = d.console.runner ∨
    ∃ task, (∀ e, task ≠ .replay e) ∧ t.console.runner = d.console.runner.submit task

theorem noReplay_submit (d : Desk) {task : Task} (h : ∀ e, task ≠ .replay e) : NoReplay d (d.submit task) :=
  Or.inr ⟨task, h, rfl⟩

theorem noReplay_activate (d : Desk) (now : Int) : NoReplay d (d.activate now) := by
  rw [activate]
  split
  · exact Or.inl rfl
  · exact Or.inl rfl
  · exact noReplay_submit d (by simp)
  · exact noReplay_submit d (by simp)
  · exact Or.inl rfl
  · exact Or.inl rfl
  · exact noReplay_submit d (by simp)
  · exact noReplay_submit d (by simp)

theorem noReplay_editKey (d : Desk) (k : KeyEvent) (command : Option Command) : NoReplay d (d.editKey k command) := by
  unfold editKey
  split
  · exact Or.inl rfl
  · rw [commitEdit]
    split
    · exact Or.inl rfl
    · dsimp only
      split <;> exact Or.inl rfl
  · exact Or.inl rfl

/-- Replaying is asked for in the history only. -/
theorem mode_of_replay {mode : Mode} (h : Binding.command? mode k = some .replay) : mode = .history := by
  rw [Binding.command?] at h
  split at h
  · obtain ⟨b, hfind, hcommand⟩ := Option.map_eq_some_iff.mp h
    have hall : ∀ b ∈ Binding.ofMode mode, b.command = .replay → mode = .history := by cases mode <;> decide
    exact hall b (List.mem_of_find?_eq_some hfind) hcommand
  · cases h

theorem viewKey_cases (d : Desk) (k : KeyEvent) (now : Int) :
    NoReplay d (d.viewKey k (Binding.command? d.console.front.mode k) now).1 ∨
      (d.console.front.mode = .history ∧
        (d.viewKey k (Binding.command? d.console.front.mode k) now).1 = d.replaySelected) := by
  unfold viewKey
  split
  · exact Or.inl (Or.inl rfl)
  · split
    · next command hcommand =>
      cases command with
      | replay => exact Or.inr ⟨mode_of_replay hcommand, rfl⟩
      | select => exact Or.inl (noReplay_activate d now)
      | _ => exact Or.inl (Or.inl rfl)
    · exact Or.inl (Or.inl rfl)

/-- A key hands in no replay, or it replays what the cursor of the history is on. -/
theorem handleKey_cases (d : Desk) (k : KeyEvent) (now : Int) (m : Moment) :
    NoReplay d (d.handleKey k now m).1 ∨
      (d.console.front.mode = .history ∧ d.console.front.helpVisible = false ∧
        (d.handleKey k now m).1 = d.replaySelected) := by
  by_cases hlogin : d.console.front.mode = .login
  · exact Or.inl (Or.inl (runner_handleKey_of_login hlogin k now m))
  rw [handleKey]
  split
  · exact Or.inl (Or.inl rfl)
  split
  · exact Or.inl (Or.inl rfl)
  split
  · split <;> exact Or.inl (Or.inl rfl)
  next hhelp =>
  dsimp only
  split
  · next hmode => exact absurd hmode hlogin
  · exact Or.inl (noReplay_editKey d k _)
  · rcases viewKey_cases d k now with hno | ⟨hmode, heq⟩
    · exact Or.inl hno
    · exact Or.inr ⟨hmode, by simpa using hhelp, heq⟩

theorem replayed_of_submitted {e : Entry} (h : .replay e ∈ d.submitted c (.key k now m)) :
    d.console.front.mode = .history ∧ d.console.front.helpVisible = false ∧
      d.store.state.history.entries[d.console.front.historySelection]? = some e := by
  rcases handleKey_cases d k now m with (hsame | ⟨task, htask, hsubmit⟩) | ⟨hmode, hhelp, hkey⟩
  · rw [submitted_of_same (c := c) (d := d) (e := .key k now m) (congrArg Runner.queue hsame)] at h
    cases h
  · rw [submitted_of_concat (c := c) (d := d) (e := .key k now m) rfl (congrArg Runner.queue hsubmit)] at h
    exact absurd (List.mem_singleton.mp h).symm (htask e)
  · refine ⟨hmode, hhelp, ?_⟩
    have hrunner : (d.after c (.key k now m)).console.runner = d.replaySelected.console.runner :=
      congrArg (·.console.runner) hkey
    cases hentry : d.store.state.history.entries[d.console.front.historySelection]? with
    | none =>
      rw [replaySelected, hentry] at hrunner
      rw [submitted_of_same (congrArg Runner.queue hrunner)] at h
      cases h
    | some e' =>
      rw [replaySelected, hentry] at hrunner
      rw [submitted_of_concat rfl (congrArg Runner.queue hrunner)] at h
      exact congrArg some (Task.replay.inj (List.mem_singleton.mp h)).symm

/-- In the history, Enter and R hand in the replay of the entry that the cursor is on. -/
theorem submitted_replay (hmode : d.console.front.mode = .history) (hhelp : d.console.front.helpVisible = false)
    {e : Entry} (hentry : d.store.state.history.entries[d.console.front.historySelection]? = some e)
    (hk : k = { code := .enter } ∨ k = { code := .char 'r' }) (c : Config) (now : Int) (m : Moment) :
    d.submitted c (.key k now m) = [.replay e] := by
  have hkey : (d.handleKey k now m).1 = d.replaySelected := by
    rcases hk with rfl | rfl
    · simp [handleKey, isInterrupt, hhelp, hmode, viewKey, tabOfKey?, viewCommand,
        show Binding.command? .history { code := .enter } = some .replay by decide]
    · simp [handleKey, isInterrupt, hhelp, hmode, viewKey, tabOfKey?, viewCommand,
        show Binding.command? .history { code := .char 'r' } = some .replay by decide,
        show Char.isDigit 'r' = false by decide]
  refine submitted_of_concat rfl ?_
  rw [after, hkey, replaySelected, hentry]
  rfl

end

end Terminal.Desk

end TicketDesk
