import TicketDesk.Proofs.Store.Slices
import TicketDesk.Proofs.Terminal.Front
import TicketDesk.Proofs.Terminal.Moves

/-! # The invariant of the terminal

Whatever texts the store was opened on and whatever happened since, the front is in order for the session
and the history of the store, and what it shows of the poller and of the tasks that are out is true. The
worker is never at work that touches the session or clears the history, so the history only grows under
the cursor. -/

namespace TicketDesk

/-! ### Background updates -/

/-- What background work leaves of a state: the session, and a history that is not shorter. -/
structure State.Grown (s t : State) : Prop where
  session : t.session = s.session
  longer : s.history.entries.length ≤ t.history.entries.length
  bounded : t.history.entries.length ≤ History.capacity

theorem Update.grown_apply {s : State} {u : Update} (hu : u.IsBackground)
    (hs : s.history.entries.length ≤ History.capacity) : s.Grown (u.apply s) := by
  cases u with
  | session x => cases hu
  | clearHistory => cases hu
  | record e =>
    have hlen : (s.history.record e).entries.length = min History.capacity (s.history.entries.length + 1) := by
      rw [History.record, List.length_take, List.length_cons]
    exact ⟨rfl, by rw [Update.apply, hlen]; omega, by rw [Update.apply, hlen]; omega⟩
  | _ => exact ⟨rfl, Nat.le_refl _, hs⟩

theorem Store.grown_updateAll {s : Store} {us : List Update} (hus : ∀ u ∈ us, u.IsBackground)
    (hs : s.state.history.entries.length ≤ History.capacity) : s.state.Grown (s.updateAll us).state := by
  induction us generalizing s with
  | nil => exact ⟨rfl, Nat.le_refl _, hs⟩
  | cons u us ih =>
    have hu := Update.grown_apply (hus u List.mem_cons_self) hs
    have hrest := ih (s := s.update u) (fun v hv => hus v (List.mem_cons_of_mem _ hv)) hu.bounded
    exact ⟨hrest.session.trans hu.session, Nat.le_trans hu.longer hrest.longer, hrest.bounded⟩

namespace Terminal.Desk

/-! ### The invariant -/

/-- The front is in order and shows whether the poller is on, and the worker is at background work. -/
structure Steady (d : Desk) : Prop where
  front : d.console.front.Proper d.store.state.session d.historyLength
  polling : d.console.front.polling = d.console.poller.isEnabled
  bounded : d.historyLength ≤ History.capacity
  background : ∀ name work, d.console.runner.running = some (name, work) → work.Changes Update.IsBackground

/-- Between the steps of the user interface the front also shows how many tasks are out. -/
structure Sound (d : Desk) : Prop extends Steady d where
  pending : d.console.front.pendingTasks = d.console.runner.pending

theorem sound_start (b : Backend) (ms : Nat) : (start (.load b) ms).Sound := by
  have hbounded := State.length_loadHistory_le (b.blobs .history)
  unfold start
  dsimp only
  split
  · next session hsession =>
    exact {
      front := by constructor <;> simp [hsession]
      polling := rfl
      pending := rfl
      bounded := hbounded
      background := fun _ _ hwork => by cases hwork }
  · next hsession =>
    exact {
      front := by constructor <;> simp [hsession]
      polling := rfl
      pending := rfl
      bounded := hbounded
      background := fun _ _ hwork => by cases hwork }

section

variable {d : Desk} (h : d.Sound)

include h

theorem Sound.onFront (f : Front → Front) (hf : (f d.console.front).Proper d.store.state.session d.historyLength)
    (hshown : (f d.console.front).ShowsAs d.console.front) : (d.onFront f).Sound :=
  { h with front := hf, polling := hshown.1.trans h.polling, pending := hshown.2.trans h.pending }

theorem Sound.say (level : Level) (message : String) : (d.say level message).Sound :=
  h.onFront _ (h.front.say level message) ⟨rfl, rfl⟩

theorem Sound.submit (t : Task) : (d.submit t).Sound :=
  { h with front := { h.front with }, pending := rfl }

theorem Sound.setPolling (on : Bool) (now : Int) : (d.setPolling on now).Sound :=
  { h with front := { h.front with }, polling := rfl }

theorem Sound.togglePolling (now : Int) : (d.togglePolling now).Sound :=
  (h.setPolling _ now).say _ _

theorem Sound.updateDrafts (edit : DraftEdit) : (d.update (.drafts edit)).Sound :=
  { h with }

/-- Logging in or out, together with the mode that goes with it. -/
theorem Sound.enter {session : Option Session} {m : Mode} (hm : d.console.front.mode ≠ .editField)
    (hhelp : d.console.front.helpVisible = false) (hedit : m ≠ .editField) (hlogin : m = .login ↔ session = none) :
    ((d.update (.session session)).onFront (·.switchTo m)).Sound where
  front := h.front.switchTo hm hhelp hedit hlogin
  polling := (Front.showsAs_switchTo _ m).1.trans h.polling
  pending := (Front.showsAs_switchTo _ m).2.trans h.pending
  bounded := h.bounded
  background := h.background

theorem Sound.goTo {m : Mode} (htab : d.console.front.mode.isTab = true) (hhelp : d.console.front.helpVisible = false)
    (hm : m.isTab = true) : (d.onFront (·.switchTo m)).Sound := by
  have hfrom := Mode.isTab_iff.mp htab
  have hto := Mode.isTab_iff.mp hm
  have hsession : d.store.state.session ≠ none := fun hnone => hfrom.1 (h.front.login.mpr hnone)
  have hlogin : m = .login ↔ d.store.state.session = none := iff_of_false hto.1 hsession
  exact h.onFront _ (h.front.switchTo hfrom.2 hhelp hto.2 hlogin) (Front.showsAs_switchTo _ m)

/-! ### The login form and the editor -/

theorem Sound.submitLogin (hm : d.console.front.mode = .login) (hhelp : d.console.front.helpVisible = false) (m : Moment) :
    (d.submitLogin m).Sound := by
  rw [Desk.submitLogin]
  split
  · exact (h.enter (by simp [hm]) hhelp (by decide) (by simp)).say _ _
  · exact h.say _ _

theorem Sound.loginKey (hm : d.console.front.mode = .login) (hhelp : d.console.front.helpVisible = false) (e : KeyEvent)
    (c : Option Command) (m : Moment) : (d.loginKey e c m).1.Sound := by
  unfold Desk.loginKey
  split
  · exact h
  · exact h.onFront (fun f => { f with login := f.login.toggleFocus }) { h.front with } ⟨rfl, rfl⟩
  · exact h.submitLogin hm hhelp m
  · exact h.onFront (fun f => { f with login := f.login.editFocused e.edit }) { h.front with } ⟨rfl, rfl⟩

theorem Sound.endEdit (hm : d.console.front.mode = .editField) : (d.onFront (·.endEdit)).Sound :=
  h.onFront _ (h.front.endEdit hm) ⟨rfl, rfl⟩

theorem Sound.commitEdit (hm : d.console.front.mode = .editField) : d.commitEdit.Sound := by
  rw [Desk.commitEdit]
  split
  · exact h.endEdit hm
  · dsimp only
    split
    · exact ((h.updateDrafts _).endEdit hm).say _ _
    · exact (h.updateDrafts _).say _ _

theorem Sound.editKey (hm : d.console.front.mode = .editField) (e : KeyEvent) (c : Option Command) :
    (d.editKey e c).Sound := by
  unfold Desk.editKey
  split
  · exact (h.endEdit hm).say _ _
  · exact h.commitEdit hm
  · exact h.onFront _ (h.front.mapEditor _) ⟨rfl, rfl⟩

/-! ### Tabs -/

theorem Sound.activate (hhelp : d.console.front.helpVisible = false) (now : Int) : (d.activate now).Sound := by
  rw [Desk.activate]
  split
  · exact h
  · next hrow => exact h.onFront _ (h.front.beginEdit hrow hhelp _) ⟨rfl, rfl⟩
  · exact h.submit _
  · exact h.submit _
  · exact (h.updateDrafts _).say _ _
  · exact h.togglePolling now
  · exact h.submit _
  · exact h.submit _

theorem Sound.replaySelected : d.replaySelected.Sound := by
  rw [Desk.replaySelected]
  split
  · exact h.submit _
  · exact h.say _ _

theorem Sound.clearHistory : d.clearHistory.Sound := by
  have hcleared : ((d.update .clearHistory).onFront (·.clampHistory 0)).Sound := {
    front := h.front.clampHistory 0
    polling := (Front.showsAs_clampHistory _ 0).1.trans h.polling
    pending := (Front.showsAs_clampHistory _ 0).2.trans h.pending
    bounded := Nat.zero_le _
    background := h.background }
  exact hcleared.say _ _

theorem Sound.logout (htab : d.console.front.mode.isTab = true) (hhelp : d.console.front.helpVisible = false) (now : Int) :
    (d.logout now).Sound :=
  ((h.setPolling false now).enter (Mode.isTab_iff.mp htab).2 hhelp (by decide) (by simp)).say _ _

theorem Sound.viewCommand (htab : d.console.front.mode.isTab = true) (hhelp : d.console.front.helpVisible = false)
    (c : Command) (now : Int) : (d.viewCommand c now).1.Sound := by
  have hedit := (Mode.isTab_iff.mp htab).2
  have hmove (down : Bool) : (d.onFront (·.moveSelection down d.historyLength)).Sound :=
    h.onFront _ (h.front.moveSelection hedit down) (Front.showsAs_moveSelection _ down _)
  cases c with
  | navigateUp => exact hmove false
  | navigateDown => exact hmove true
  | nextTab => exact h.goTo htab hhelp (Mode.isTab_tabAfter htab 1)
  | previousTab => exact h.goTo htab hhelp (Mode.isTab_tabAfter htab _)
  | select => exact h.activate hhelp now
  | togglePolling => exact h.togglePolling now
  | replay => exact h.replaySelected
  | clearHistory => exact h.clearHistory
  | logout => exact h.logout htab hhelp now
  | help =>
    exact h.onFront (fun f => { f with helpVisible := true }) { h.front with help := fun _ => htab } ⟨rfl, rfl⟩
  | _ => exact h

theorem Sound.viewKey (htab : d.console.front.mode.isTab = true) (hhelp : d.console.front.helpVisible = false)
    (e : KeyEvent) (c : Option Command) (now : Int) : (d.viewKey e c now).1.Sound := by
  unfold Desk.viewKey
  split
  · next tab hkey =>
    have htarget : tab.isTab = true := by
      unfold tabOfKey? at hkey
      split at hkey
      · split at hkey
        · exact Mode.isTab_of_ofTabNumber? hkey
        · cases hkey
      · cases hkey
    exact h.goTo htab hhelp htarget
  · split
    · exact h.viewCommand htab hhelp _ now
    · exact h

theorem Sound.handleKey (e : KeyEvent) (now : Int) (m : Moment) : (d.handleKey e now m).1.Sound := by
  rw [Desk.handleKey]
  split
  · exact h
  · split
    · exact h
    -- The help lies over everything else; under it the mode says who gets the key.
    · split
      · split
        · exact h.onFront (fun f => { f with helpVisible := false })
            { h.front with help := fun hvisible => by cases hvisible } ⟨rfl, rfl⟩
        · exact h
      · next hhelp =>
        have hhelp : d.console.front.helpVisible = false := by simpa using hhelp
        dsimp only
        split
        · next hm => exact h.loginKey hm hhelp e _ m
        · next hm => exact h.editKey hm e _
        · next hlogin hedit => exact h.viewKey (Mode.isTab_iff.mpr ⟨hlogin, hedit⟩) hhelp e _ now

/-! ### Ticks -/

omit h in
theorem Steady.applyReport (h : d.Steady) (r : Report) : (d.applyReport r).Steady := by
  have hflag : Steady
      (if r.task = Request.pollLabel then { d with console := { d.console with pollInFlight := false } } else d) := by
    split
    · exact { h with }
    · exact h
  unfold Desk.applyReport
  dsimp only
  split
  · exact hflag
  · exact { hflag with
      front := (hflag.front.say _ _).clampHistory _
      polling := (Front.showsAs_clampHistory _ _).1.trans hflag.polling }

omit h in
theorem Steady.foldl_applyReport (h : d.Steady) (rs : List Report) : (rs.foldl Desk.applyReport d).Steady := by
  induction rs generalizing d with
  | nil => exact h
  | cons r rs ih => exact ih (h.applyReport r)

theorem Sound.takeReports : d.takeReports.Sound := by
  -- While the reports are taken in, the count that is shown is behind, so only the rest is carried through.
  have hdrained : Steady { d with console := { d.console with runner := d.console.runner.drain.2 } } :=
    { h.toSteady with }
  have htaken := hdrained.foldl_applyReport d.console.runner.reports
  have hrunner := (applied_takeReports d).runner
  exact { htaken with front := { htaken.front with }, pending := (congrArg Runner.pending hrunner).symm }

theorem Sound.leavePolling (now : Int) : (d.leavePolling now).Sound := by
  rw [Desk.leavePolling]
  split
  · exact h.setPolling false now
  · exact h

theorem Sound.firePoll (now : Int) : (d.firePoll now).Sound := by
  have hdue (out : Bool) :
      Sound { d with console := { d.console with poller := (d.console.poller.due now).2, pollInFlight := out } } :=
    { h with polling := h.polling.trans (Poller.isEnabled_due _ now).symm }
  rcases firePoll_cases d now with heq | ⟨-, -, heq⟩
  · rw [heq]
    exact hdue d.console.pollInFlight
  · rw [heq]
    exact (hdue true).submit _

theorem Sound.tick (now : Int) : (d.tick now).Sound :=
  (h.takeReports.leavePolling now).firePoll now

/-! ### The worker -/

theorem Sound.work {name : String} {work : Work (Except Fault TaskOutput)} {s : Store}
    (hwork : work.Changes Update.IsBackground) (hs : d.store.state.Grown s.state) : (d.withWork name work s).Sound where
  front := hs.session ▸ h.front.of_le hs.longer
  polling := h.polling
  pending := h.pending
  bounded := hs.bounded
  background := fun n v hv => by
    obtain ⟨-, rfl⟩ := Prod.mk.inj (Option.some.inj hv)
    exact hwork

theorem Sound.after (c : Config) (e : Event) : (d.after c e).Sound := by
  cases e with
  | key e now m => exact h.handleKey e now m
  | tick now => exact h.tick now
  | begin =>
    have hw := worked_after c d (e := .begin) rfl
    refine { h with pending := h.pending.trans hw.pending.symm, background := fun name work hwork => ?_ }
    simp only [Desk.after, Runner.begin] at hwork
    split at hwork
    · obtain ⟨-, rfl⟩ := Prod.mk.inj (Option.some.inj hwork)
      exact (Task.changes_work c _ _).mono fun _ => Task.MayMake.isBackground
    · exact h.background name work hwork
  | work reply moment clock =>
    simp only [Desk.after]
    split
    · next name work hrunning =>
      obtain ⟨hrest, us, hus, hstore⟩ := (h.background name work hrunning).step (.saying reply moment clock) d.store ()
      exact h.work hrest (hstore ▸ Store.grown_updateAll hus h.bounded)
    · exact h
  | report =>
    have hw := worked_after c d (e := .report) rfl
    refine { h with pending := h.pending.trans hw.pending.symm, background := fun name work hwork => ?_ }
    simp only [Desk.after, Runner.finish] at hwork
    split at hwork
    · cases hwork
    · exact h.background name work hwork

theorem Sound.run (c : Config) (es : List Event) : (d.run c es).Sound := by
  induction es using List.reverseRecOn with
  | nil => exact h
  | append_singleton es e ih =>
    rw [run_concat]
    exact ih.after c e

/-! ### Without a session -/

theorem Sound.submitted_eq_nil (hnone : d.store.state.session = none) (c : Config) (e : Event) : d.submitted c e = [] := by
  have hm : d.console.front.mode = .login := h.front.login.mpr hnone
  cases e with
  | key e now m => exact submitted_of_same (congrArg Runner.queue (runner_handleKey_of_login hm e now m))
  | tick now =>
    rcases submitted_tick c d now with ⟨hs, -⟩ | ⟨t, hs, -⟩
    · exact hs
    -- A poll would need the booking view.
    · have hbooking := (booking_of_poll (hs ▸ List.mem_singleton_self _)).2
      rw [Front.effectiveMode_eq (by simp [hm]), hm] at hbooking
      cases hbooking
  | begin => rfl
  | work reply moment clock => rfl
  | report => rfl

end

/-! ### The whole of it -/

/-- What holds of a terminal at any moment between the steps of its user interface. -/
structure Orderly (c : Config) (d : Desk) : Prop where
  /-- The editor, the login mode, the cursors and the help are in order. -/
  front : d.console.front.Proper d.store.state.session d.store.state.history.entries.length
  polling : d.console.front.polling = d.console.poller.isEnabled
  pending : d.console.front.pendingTasks = d.console.runner.pending
  /-- Without a session no key and no tick hands in a task. -/
  idle : d.store.state.session = none → ∀ e, d.submitted c e = []
  /-- After a tick polling is on only under the booking view. -/
  booking : ∀ now, (d.tick now).console.poller.isEnabled = true → (d.tick now).console.front.effectiveMode = .booking

theorem orderly_run (c : Config) (b : Backend) (ms : Nat) (es : List Event) :
    Orderly c ((start (.load b) ms).run c es) := by
  have h := (sound_start b ms).run c es
  exact {
    front := h.front
    polling := h.polling
    pending := h.pending
    idle := fun hnone e => h.submitted_eq_nil hnone c e
    booking := fun now => (ticked_tick _ now).booking }

end Terminal.Desk

end TicketDesk
