import TicketDesk.Proofs.Drafts
import TicketDesk.Proofs.Terminal.Moves
import TicketDesk.Proofs.Work.Delivery
import TicketDesk.Proofs.Work.Snapshot

/-! # Edits while the worker is at it

The operator goes on editing the drafts while the worker is at a task, and the worker keeps the id of an order
that it creates whenever the answer is there. Each write is one locked update that reads the drafts as they are
then and changes its own field only. So the drafts are at any time what all writes so far make of the initial
ones, whatever was in flight, and a task sends the drafts of its first step and no later ones. -/

namespace TicketDesk

/-! ### Writes -/

/-- A write to the drafts: two by the operator and one by the worker. -/
inductive DraftWrite where
  /-- Sets a field from its edited text, unless the text is refused. -/
  | commit (field : Field) (text : String)
  | useCurrentOrderId
  /-- Keeps the id of an order. -/
  | capture (id : String)

namespace DraftWrite

def apply (d : Drafts) : DraftWrite → Drafts
  | .commit field text =>
    match d.set field text with
    | .ok e => e
    | .error _ => d
  | .useCurrentOrderId => d.useCurrentOrderId
  | .capture id => { d with orderId := id }

/-- What a successful edit of a field makes it show. -/
def edited? (f : Field) : DraftWrite → Option String
  | .commit field text => if field = f then field.shown? text else none
  | _ => none

theorem get_apply {f : Field} (hf : f ≠ .orderId) (hq : f ≠ .queryOrderId) (d : Drafts) (w : DraftWrite) :
    (w.apply d).get f = (w.edited? f).getD (d.get f) := by
  cases w with
  | commit field text =>
    rw [apply, edited?]
    cases hset : d.set field text with
    | ok e =>
      obtain ⟨hshown, hothers⟩ := Drafts.get_of_set hset
      by_cases h : field = f
      · rw [if_pos h, hshown, h]
        rfl
      · rw [if_neg h]
        exact hothers f (Ne.symm h)
    | error x => rw [Drafts.shown?_eq_none hset, ite_self]; rfl
  | useCurrentOrderId => cases f <;> trivial
  | capture id => cases f <;> trivial

/-- A field that only edits set shows what the last successful one made it show. -/
theorem get_foldl_apply {f : Field} (hf : f ≠ .orderId) (hq : f ≠ .queryOrderId) (d : Drafts) (ws : List DraftWrite) :
    (ws.foldl apply d).get f = (ws.filterMap (·.edited? f)).getLast?.getD (d.get f) := by
  induction ws using List.reverseRecOn with
  | nil => rfl
  | append_singleton ws w ih =>
    rw [List.foldl_append, List.foldl_cons, List.foldl_nil, get_apply hf hq, ih, List.filterMap_append]
    cases hw : w.edited? f with
    | none => simp [hw]
    | some text => simp [hw]

end DraftWrite

/-- The write that an update of the worker makes, if any. -/
def Update.captured? : Update → Option DraftWrite
  | .drafts (.capture .captureOrderId data) => (createdOrderId? data).map .capture
  | .drafts (.keepOrderId id) => some (.capture id)
  | _ => none

/-- The updates that write nothing but order ids to the drafts. -/
def Update.OnlyCaptures : Update → Prop
  | .drafts (.set _) => False
  | .drafts .useCurrentOrderId => False
  | _ => True

theorem Update.OnlyCaptures.drafts_apply {u : Update} (h : u.OnlyCaptures) (s : State) :
    (u.apply s).drafts = u.captured?.toList.foldl DraftWrite.apply s.drafts := by
  cases u with
  | drafts edit =>
    cases edit with
    | set values => cases h
    | useCurrentOrderId => cases h
    | capture hook data =>
      cases hook
      simp only [apply, DraftEdit.apply, Hook.apply, captured?]
      cases createdOrderId? data <;> rfl
    | keepOrderId id => rfl
  | _ => rfl

theorem Store.drafts_updateAll {us : List Update} (h : ∀ u ∈ us, u.OnlyCaptures) (s : Store) :
    (s.updateAll us).state.drafts = (us.filterMap Update.captured?).foldl DraftWrite.apply s.state.drafts := by
  induction us generalizing s with
  | nil => rfl
  | cons u us ih =>
    rw [List.forall_mem_cons] at h
    have hu : (s.update u).state.drafts = _ := h.1.drafts_apply s.state
    rw [updateAll, List.foldl_cons, ← updateAll, ih h.2, hu, List.filterMap_cons]
    cases u.captured? <;> rfl

theorem Task.MayMake.onlyCaptures {t : Task} {u : Update} (h : t.MayMake u) : u.OnlyCaptures := by
  cases u with
  | drafts edit =>
    cases edit with
    | set values => cases h
    | useCurrentOrderId => cases h
    | _ => trivial
  | _ => trivial

theorem Work.Changes.next {work : Work α} {P : Update → Prop} (h : work.Changes P) (st : Stage) :
    (work.next st).Changes P ∧ ∀ u ∈ work.updates, P u := by
  cases work with
  | done a => exact ⟨h, by simp [updates]⟩
  | look next => exact ⟨h _, by simp [updates]⟩
  | change us next => exact ⟨h.2, h.1⟩
  | send wire next => exact ⟨h _, by simp [updates]⟩
  | moment next => exact ⟨h _, by simp [updates]⟩
  | say line next => exact ⟨h, by simp [updates]⟩
  | wait millis next => exact ⟨h _, by simp [updates]⟩

namespace Terminal.Desk

/-! ### What an event writes and sends -/

/-- The write of a command: the commit of the edited field, or the row that uses the current order. -/
def commandWrites (d : Desk) : Option Command → List DraftWrite
  | some .confirm =>
    if d.console.front.mode = .editField then d.console.front.editor.toList.map fun x => .commit x.field x.buffer else []
  | some .select => if d.console.front.selectedRow? = some .useCurrentOrderId then [.useCurrentOrderId] else []
  | _ => []

def keyWrites (d : Desk) (e : KeyEvent) : List DraftWrite :=
  if e.kind = .press ∧ isInterrupt e = false ∧ d.console.front.helpVisible = false then
    d.commandWrites (Binding.command? d.console.front.mode e)
  else []

def writes (d : Desk) : Event → List DraftWrite
  | .key e _ _ => d.keyWrites e
  | .work _ _ _ => d.console.runner.running.toList.flatMap fun task => task.2.updates.filterMap Update.captured?
  | _ => []

/-- The requests that the worker sends. -/
def outgoing (d : Desk) : Event → List Wire
  | .work _ _ _ => d.console.runner.running.toList.flatMap fun task => task.2.outgoing
  | _ => []

/-- What a step of the worker meets. -/
def stages (d : Desk) : Event → List Stage
  | .work reply moment clock => [⟨d.store.state, reply, moment, clock⟩]
  | _ => []

/-! ### Keys -/

theorem commandWrites_eq_nil {d : Desk} {command : Option Command} (hm : d.console.front.mode ≠ .editField)
    (h : command ≠ some .select) : d.commandWrites command = [] := by
  unfold commandWrites
  split
  · exact if_neg hm
  · exact absurd rfl h
  · rfl

theorem drafts_commitEdit (d : Desk) : d.commitEdit.store.state.drafts =
    (d.console.front.editor.toList.map fun x => .commit x.field x.buffer).foldl DraftWrite.apply d.store.state.drafts := by
  rw [commitEdit]
  cases d.console.front.editor with
  | none => rfl
  | some x =>
    have hset : ((DraftEdit.set [(x.field, x.buffer)]).apply d.store.state.drafts).1 =
        (DraftWrite.commit x.field x.buffer).apply d.store.state.drafts := by
      simp only [DraftEdit.apply, Drafts.setAll, DraftWrite.apply]
      cases d.store.state.drafts.set x.field x.buffer <;> rfl
    dsimp only
    split <;> exact hset

/-- The editor has no rows. -/
theorem drafts_editKey {d : Desk} (hm : d.console.front.mode = .editField) (e : KeyEvent) (command : Option Command) :
    (d.editKey e command).store.state.drafts =
      (d.commandWrites command).foldl DraftWrite.apply d.store.state.drafts := by
  have hrow : d.console.front.selectedRow? = none := by
    rw [Front.selectedRow?, hm]
    rfl
  unfold commandWrites
  split
  · rw [if_pos hm]
    exact drafts_commitEdit d
  · rw [hrow]
    rfl
  · next hconfirm _ =>
    unfold editKey
    split
    · rfl
    · exact absurd rfl hconfirm
    · rfl

theorem drafts_loginKey {d : Desk} (hm : d.console.front.mode = .login) (e : KeyEvent) (command : Option Command)
    (m : Moment) : (d.loginKey e command m).1.store.state.drafts =
      (d.commandWrites command).foldl DraftWrite.apply d.store.state.drafts := by
  have hnone : d.commandWrites command = [] := by
    have hrow : d.console.front.selectedRow? = none := by
      rw [Front.selectedRow?, hm]
      rfl
    unfold commandWrites
    rw [hrow, hm]
    split <;> rfl
  rw [hnone]
  unfold loginKey
  split
  · rfl
  · rfl
  · rw [submitLogin]
    split <;> rfl
  · rfl

theorem drafts_activate (d : Desk) (now : Int) : (d.activate now).store.state.drafts =
    (d.commandWrites (some .select)).foldl DraftWrite.apply d.store.state.drafts := by
  rw [activate, commandWrites]
  cases d.console.front.selectedRow? with
  | none => rfl
  | some row => cases row <;> rfl

theorem drafts_viewCommand {d : Desk} (hm : d.console.front.mode ≠ .editField) (command : Command) (now : Int) :
    (d.viewCommand command now).1.store.state.drafts =
      (d.commandWrites (some command)).foldl DraftWrite.apply d.store.state.drafts := by
  cases command with
  | select => exact drafts_activate d now
  | confirm =>
    rw [commandWrites_eq_nil hm (by simp)]
    rfl
  | replay =>
    rw [viewCommand, replaySelected]
    dsimp only
    split <;> rfl
  | _ => rfl

/-- Only the key that runs a row is bound to do so, and it names no tab. -/
theorem code_of_select {m : Mode} {e : KeyEvent} (h : Binding.command? m e = some .select) : e.code = .enter := by
  rw [Binding.command?] at h
  split at h
  · obtain ⟨b, hfind, hcommand⟩ := Option.map_eq_some_iff.mp h
    have hcode : b.key = e.code := by simpa using List.find?_some hfind
    have hall : ∀ b ∈ Binding.ofMode m, b.command = .select → b.key = .enter := by cases m <;> decide
    exact hcode ▸ hall b (List.mem_of_find?_eq_some hfind) hcommand
  · cases h

theorem drafts_viewKey {d : Desk} (hm : d.console.front.mode ≠ .editField) (e : KeyEvent) (now : Int) :
    (d.viewKey e (Binding.command? d.console.front.mode e) now).1.store.state.drafts =
      (d.commandWrites (Binding.command? d.console.front.mode e)).foldl DraftWrite.apply d.store.state.drafts := by
  unfold viewKey
  split
  · next tab htab =>
    have hselect : Binding.command? d.console.front.mode e ≠ some .select := by
      intro h
      rw [code_of_select h] at htab
      cases htab
    rw [commandWrites_eq_nil hm hselect]
    rfl
  · split
    · next command hcommand =>
      rw [hcommand]
      exact drafts_viewCommand hm command now
    · next hcommand =>
      rw [hcommand]
      rfl

theorem drafts_handleKey (d : Desk) (e : KeyEvent) (now : Int) (m : Moment) :
    (d.handleKey e now m).1.store.state.drafts = (d.keyWrites e).foldl DraftWrite.apply d.store.state.drafts := by
  rw [handleKey, keyWrites]
  split
  · next hkind =>
    rw [if_neg fun h => hkind h.1]
    rfl
  · next hkind =>
    split
    · next hinterrupt =>
      have hno : ¬(e.kind = .press ∧ isInterrupt e = false ∧ d.console.front.helpVisible = false) := by simp [hinterrupt]
      rw [if_neg hno]
      rfl
    · next hinterrupt =>
      split
      · next hhelp =>
        have hno : ¬(e.kind = .press ∧ isInterrupt e = false ∧ d.console.front.helpVisible = false) := by simp [hhelp]
        rw [if_neg hno]
        split <;> rfl
      · next hhelp =>
        rw [if_pos ⟨not_not.mp hkind, by simpa using hinterrupt, by simpa using hhelp⟩]
        dsimp only
        split
        · next hm => exact hm ▸ drafts_loginKey hm e _ m
        · next hm => exact drafts_editKey hm e _
        · next hm => exact drafts_viewKey hm e now

/-! ### The worker -/

variable {c : Config} {d : Desk}

/-- The work in hand writes nothing but order ids to the drafts. -/
def Captures (d : Desk) : Prop :=
  ∀ name work, d.console.runner.running = some (name, work) → work.Changes Update.OnlyCaptures

theorem running_front (c : Config) (d : Desk) {e : Event} (h : e.isFront = true) :
    (d.after c e).console.runner.running = d.console.runner.running := by
  cases e with
  | key e now m =>
    rcases submitted_key c d e now m with ⟨-, hr⟩ | ⟨t, -, -, hr⟩
    · rw [hr]
    · rw [hr, Runner.submit]
  | tick now =>
    rcases submitted_tick c d now with ⟨-, hr⟩ | ⟨t, -, hr⟩
    · rw [hr, Runner.drain]
    · rw [hr, Runner.submit, Runner.drain]
  | _ => cases h

theorem after_work {name : String} {work : Work (Except Fault TaskOutput)}
    (h : d.console.runner.running = some (name, work)) (reply : Reply) (moment : Moment) (clock : Int) :
    d.after c (.work reply moment clock) =
      d.withWork name (work.next ⟨d.store.state, reply, moment, clock⟩) (d.store.updateAll work.updates) := by
  simp only [after, h, Work.step_saying]

theorem Captures.after (h : d.Captures) (c : Config) (e : Event) : (d.after c e).Captures := by
  intro name work hnow
  cases e with
  | key e now m => exact h name work ((running_front c d (e := .key e now m) rfl).symm.trans hnow)
  | tick now => exact h name work ((running_front c d (e := .tick now) rfl).symm.trans hnow)
  | begin =>
    simp only [Desk.after] at hnow
    rcases d.console.runner.begin_cases c d.console.poller with ⟨t, rest, -, -, hbegin⟩ | ⟨-, hbegin⟩
    · rw [hbegin] at hnow
      obtain ⟨-, rfl⟩ := Prod.mk.inj (Option.some.inj hnow)
      exact (Task.changes_work c _ t).mono fun _ => Task.MayMake.onlyCaptures
    · rw [hbegin] at hnow
      exact h name work hnow
  | work reply moment clock =>
    cases hrunning : d.console.runner.running with
    | none =>
      simp only [Desk.after, hrunning] at hnow
      cases hnow
    | some task =>
      rw [after_work hrunning] at hnow
      obtain ⟨-, rfl⟩ := Prod.mk.inj (Option.some.inj hnow)
      exact ((h _ _ hrunning).next _).1
  | report =>
    simp only [Desk.after] at hnow
    rcases d.console.runner.finish_cases with ⟨old, outcome, -, hfinish⟩ | hfinish
    · rw [hfinish] at hnow
      cases hnow
    · rw [hfinish] at hnow
      exact h name work hnow

theorem Captures.drafts_after (h : d.Captures) (c : Config) (e : Event) :
    (d.after c e).store.state.drafts = (d.writes e).foldl DraftWrite.apply d.store.state.drafts := by
  cases e with
  | key e now m => exact drafts_handleKey d e now m
  | tick now => exact congrArg (·.state.drafts) (ticked_tick d now).store
  | begin => rfl
  | work reply moment clock =>
    cases hrunning : d.console.runner.running with
    | none => simp only [Desk.after, writes, hrunning, Option.toList_none, List.flatMap_nil, List.foldl_nil]
    | some task =>
      rw [after_work hrunning, writes, hrunning, Option.toList_some, List.flatMap_singleton]
      exact Store.drafts_updateAll ((h _ _ hrunning).next ⟨d.store.state, reply, moment, clock⟩).2 d.store
  | report => rfl

theorem Captures.run (h : d.Captures) (c : Config) (es : List Event) : (d.run c es).Captures := by
  induction es using List.reverseRecOn with
  | nil => exact h
  | append_singleton es e ih => exact run_concat ▸ ih.after c e

theorem Captures.drafts_run (h : d.Captures) (c : Config) (es : List Event) :
    (d.run c es).store.state.drafts = (collect c writes d es).foldl DraftWrite.apply d.store.state.drafts := by
  induction es using List.reverseRecOn with
  | nil => rfl
  | append_singleton es e ih =>
    rw [run_concat, (h.run c es).drafts_after, ih, collect_concat, List.foldl_append]

/-! ### The snapshot -/

/-- An event after which the worker is still at its task takes the task on, by what it makes it meet. -/
theorem running_after {name : String} {work : Work (Except Fault TaskOutput)}
    (h : d.console.runner.running = some (name, work)) {e : Event}
    (hbusy : (d.after c e).console.runner.running.isSome = true) :
    (d.after c e).console.runner.running = some (name, work.along (d.stages e)) ∧
      d.outgoing e = work.sentAlong (d.stages e) := by
  cases e with
  | key e now m => exact ⟨(running_front c d (e := .key e now m) rfl).trans h, rfl⟩
  | tick now => exact ⟨(running_front c d (e := .tick now) rfl).trans h, rfl⟩
  | begin =>
    refine ⟨?_, rfl⟩
    rcases d.console.runner.begin_cases c d.console.poller with ⟨t, rest, hidle, -, -⟩ | ⟨-, hbegin⟩
    · rw [h] at hidle
      cases hidle
    · simp only [Desk.after, hbegin]
      exact h
  | work reply moment clock =>
    refine ⟨congrArg (·.console.runner.running) (after_work h reply moment clock), ?_⟩
    simp [outgoing, stages, h, Work.sentAlong]
  | report =>
    refine ⟨?_, rfl⟩
    rcases d.console.runner.finish_cases with ⟨old, outcome, -, hfinish⟩ | hfinish
    · simp [Desk.after, hfinish] at hbusy
    · simp only [Desk.after, hfinish]
      exact h

/-- What the worker sends as long as it is at a task is what the task sends with what it meets. -/
theorem outgoing_run {name : String} {work : Work (Except Fault TaskOutput)}
    (h : d.console.runner.running = some (name, work)) {es : List Event}
    (hbusy : ∀ part, part <+: es → (d.run c part).console.runner.running.isSome = true) :
    collect c outgoing d es = work.sentAlong (collect c stages d es) := by
  induction es generalizing d work with
  | nil => rfl
  | cons e es ih =>
    obtain ⟨hafter, hsent⟩ := running_after h (hbusy [e] (List.prefix_append [e] es))
    have hrest := ih hafter fun part hpart => hbusy (e :: part) (List.cons_prefix_cons.mpr ⟨rfl, hpart⟩)
    rw [collect, collect, hsent, hrest, Work.sentAlong_append]

/-- The worker takes a task when it begins. -/
def Takes (d : Desk) (t : Task) : Prop :=
  d.console.runner.running = none ∧ d.console.runner.queue.head? = some t

theorem Takes.running {t : Task} (h : d.Takes t) (c : Config) :
    (d.after c .begin).console.runner.running = some (t.describe, t.work c d.console.poller) := by
  obtain ⟨hidle, hhead⟩ := h
  obtain ⟨rest, hqueue⟩ := List.head?_eq_some_iff.mp hhead
  simp only [Desk.after, Runner.begin, hidle, hqueue]

/-- What a run keeps of the writes to the drafts. -/
structure NothingLost (c : Config) (d : Desk) (es : List Event) : Prop where
  /-- The drafts are what all writes of the run, in their order, make of the initial ones. -/
  drafts : (d.run c es).store.state.drafts = (collect c writes d es).foldl DraftWrite.apply d.store.state.drafts
  /-- Fields that take no order id show what the last successful edit made them show. -/
  edits : ∀ f, f ≠ .orderId → f ≠ .queryOrderId → (d.run c es).store.state.drafts.get f =
    ((collect c writes d es).filterMap (·.edited? f)).getLast?.getD (d.store.state.drafts.get f)
  /-- As long as the worker is at a task, it sends what the task sends if it finds the drafts of its first step
      at every step. -/
  snapshot : ∀ before since t, es = before ++ .begin :: since → (d.run c before).Takes t →
    (∀ part, part <+: since → (d.run c (before ++ .begin :: part)).console.runner.running.isSome = true) →
    ∀ s : State, (∀ st, (collect c stages (d.run c (before ++ [.begin])) since).head? = some st →
        s.drafts = st.state.drafts) →
      collect c outgoing (d.run c (before ++ [.begin])) since =
        (t.work c (d.run c before).console.poller).sentAlong
          ((collect c stages (d.run c (before ++ [.begin])) since).map (·.inState s))

/-- However the edits of the operator fall between the steps of the worker, none is lost. -/
theorem nothingLost_run (c : Config) (s : Store) (ms : Nat) (es : List Event) : NothingLost c (start s ms) es := by
  have hidle : (start s ms).Captures := fun _ _ h => by cases h
  have hdrafts := hidle.drafts_run c es
  refine ⟨hdrafts, fun f hf hq => ?_, ?_⟩
  · rw [hdrafts, DraftWrite.get_foldl_apply hf hq]
  · intro before since t _ htakes hbusy snap hsnap
    have hrunning := htakes.running c
    rw [← run_concat] at hrunning
    rw [(t.snaps_work c _).sentAlong_inState snap _ hsnap]
    refine outgoing_run hrunning fun part hpart => ?_
    have hstill := hbusy part hpart
    rwa [List.append_cons, run_append] at hstill

end Terminal.Desk

end TicketDesk
