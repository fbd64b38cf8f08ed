import TicketDesk.Proofs.Drafts
import TicketDesk.Proofs.Terminal.Front
import TicketDesk.Proofs.Terminal.Moves

/-! # Editing a field

Enter on a field opens the editor with the text of the field. From then on every character is text, whatever
it would ask for elsewhere, until Escape drops the text or Enter writes it into the drafts. A text that is refused
stays in the editor. What the worker and the ticks do meanwhile does not touch the editor, and what is typed touches
nothing else. -/

namespace TicketDesk.Terminal

/-! ### Keys that are text -/

namespace KeyEvent

def enter : KeyEvent := { code := .enter }

def esc : KeyEvent := { code := .esc }

/-- A press of backspace, or of a character without control and alt. -/
def IsText (e : KeyEvent) : Prop :=
  e.kind = .press ∧
    (e.code = .backspace ∨ ∃ c, e.code = .char c ∧ e.modifiers.ctrl = false ∧ e.modifiers.alt = false)

/-- A line of text once a key is typed at its end. -/
def typed (cs : List Char) (e : KeyEvent) : List Char :=
  match e.code with
  | .backspace => cs.dropLast
  | .char c => cs ++ [c]
  | _ => cs

variable {e : KeyEvent}

theorem IsText.edit_eq (h : e.IsText) (cs : List Char) : e.edit (String.ofList cs) = String.ofList (e.typed cs) := by
  obtain ⟨-, hcode | ⟨c, hcode, hctrl, halt⟩⟩ := h
  · simp [edit, typed, hcode]
  · refine String.toList_inj.mp ?_
    simp [edit, typed, hcode, hctrl, halt]

theorem IsText.not_interrupt (h : e.IsText) : Desk.isInterrupt e = false := by
  obtain ⟨-, hcode | ⟨c, hcode, hctrl, -⟩⟩ := h
  · simp [Desk.isInterrupt, hcode]
  · simp [Desk.isInterrupt, hctrl]

/-- In the editor only Enter and Escape ask for something. -/
theorem IsText.command_eq_none (h : e.IsText) : Binding.command? .editField e = none := by
  have hkeys : ∀ b ∈ Binding.ofMode .editField, b.key = .enter ∨ b.key = .esc := by decide
  rw [Binding.command?]
  split
  · rw [Option.map_eq_none_iff, List.find?_eq_none]
    intro b hb
    obtain ⟨-, hcode | ⟨c, hcode, -⟩⟩ := h <;> rcases hkeys b hb with hkey | hkey <;> simp [hcode, hkey]
  · rfl

end KeyEvent

namespace Event

def isKey : Event → Bool
  | .key _ _ _ => true
  | _ => false

/-- A key that is text, or anything that the user does not do. -/
def Types : Event → Prop
  | .key e _ _ => e.IsText
  | _ => True

def typed (cs : List Char) : Event → List Char
  | .key e _ _ => e.typed cs
  | _ => cs

end Event

/-! ### What reports leave of the front -/

/-- The front without its status line and what it shows of the poller and of the tasks. -/
def Front.bare (f : Front) : Front :=
  { f with level := .info, status := "", polling := false, pendingTasks := 0 }

/-- The front without its status line, its history cursor and what it shows of the poller and of the tasks. -/
def Front.still (f : Front) : Front :=
  { f with level := .info, status := "", historySelection := 0, polling := false, pendingTasks := 0 }

namespace Desk

/-- What a tick does after it took the reports is shown in the poller and the tasks only. -/
theorem bare_tick (d : Desk) (now : Int) : (d.tick now).console.front.bare = d.takeReports.console.front.bare := by
  have hleft : (d.takeReports.leavePolling now).console.front.bare = d.takeReports.console.front.bare := by
    rw [leavePolling]
    split <;> rfl
  refine Eq.trans ?_ hleft
  rw [tick]
  rcases firePoll_cases (d.takeReports.leavePolling now) now with h | ⟨-, -, h⟩
  · rw [h]
  · rw [h]
    rfl

theorem still_applyReport (d : Desk) (r : Report) : (d.applyReport r).console.front.still = d.console.front.still := by
  have hclamp (f : Front) (n : Nat) : (f.clampHistory n).still = f.still := by
    rw [Front.clampHistory]
    split <;> rfl
  unfold applyReport
  dsimp only
  split
  · split <;> rfl
  · refine (hclamp _ _).trans ?_
    split <;> rfl

theorem still_foldl (d : Desk) (rs : List Report) : (rs.foldl applyReport d).console.front.still = d.console.front.still := by
  induction rs generalizing d with
  | nil => rfl
  | cons r rs ih => exact (ih _).trans (still_applyReport d r)

theorem still_tick (d : Desk) (now : Int) : (d.tick now).console.front.still = d.console.front.still := by
  have htaken : d.takeReports.console.front.still = d.console.front.still := still_foldl _ d.console.runner.reports
  exact (congrArg Front.still (bare_tick d now)).trans htaken

/-- An event that is no key leaves the front but for what reports change. -/
theorem still_after (c : Config) (d : Desk) {e : Event} (h : e.isKey = false) :
    (d.after c e).console.front.still = d.console.front.still := by
  cases e with
  | key k now m => cases h
  | tick now => exact still_tick d now
  | _ => exact congrArg Front.still (worked_after c d rfl).front

/-! ### The open editor -/

/-- A field is edited over a view where it is the row, and this is the text so far. -/
structure Editing (d : Desk) (view : Mode) (row : Nat) (field : Field) (cs : List Char) : Prop where
  mode : d.console.front.mode = .editField
  under : d.console.front.returnMode = some view
  row : d.console.front.selection = row
  editor : d.console.front.editor = some ⟨field, String.ofList cs⟩
  help : d.console.front.helpVisible = false

/-- The editor is closed, over the view and the row that there were. -/
structure Closed (d : Desk) (view : Mode) (row : Nat) : Prop where
  mode : d.console.front.mode = view
  row : d.console.front.selection = row
  editor : d.console.front.editor = none
  under : d.console.front.returnMode = none

/-- An event of the user interface leaves the view and the state; a key of it hands in nothing and does not quit. -/
structure Quiet (c : Config) (d : Desk) (e : Event) : Prop where
  view : (d.after c e).console.front.effectiveMode = d.console.front.effectiveMode
  state : e.isFront = true → (d.after c e).store.state = d.store.state
  stays : ∀ k now m, e = .key k now m → (d.handleKey k now m).2 = false ∧ d.submitted c e = []

section

variable {c : Config} {d t : Desk} {view : Mode} {row : Nat} {field : Field} {cs : List Char} {e : Event}

theorem Editing.of_still (h : d.Editing view row field cs) (heq : t.console.front.still = d.console.front.still) :
    t.Editing view row field cs where
  mode := (congrArg Front.mode heq).trans h.mode
  under := (congrArg Front.returnMode heq).trans h.under
  row := (congrArg Front.selection heq).trans h.row
  editor := (congrArg Front.editor heq).trans h.editor
  help := (congrArg Front.helpVisible heq).trans h.help

theorem Editing.effectiveMode_eq (h : d.Editing view row field cs) : d.console.front.effectiveMode = view := by
  rw [Front.effectiveMode, h.mode, h.under]
  rfl

theorem Editing.handleKey_eq (h : d.Editing view row field cs) {k : KeyEvent} (hkind : k.kind = .press)
    (hinterrupt : isInterrupt k = false) (now : Int) (m : Moment) :
    d.handleKey k now m = (d.editKey k (Binding.command? .editField k), false) := by
  simp [handleKey, hkind, hinterrupt, h.help, h.mode]

/-- A key that is text goes to the end of the text. -/
theorem Editing.handleKey_text (h : d.Editing view row field cs) {k : KeyEvent} (hk : k.IsText) (now : Int) (m : Moment) :
    d.handleKey k now m = (d.onFront fun f => { f with editor := some ⟨field, String.ofList (k.typed cs)⟩ }, false) := by
  rw [h.handleKey_eq hk.1 hk.not_interrupt, hk.command_eq_none]
  simp only [editKey, onFront, h.editor, Option.map_some, hk.edit_eq]

theorem Editing.after (h : d.Editing view row field cs) (c : Config) (he : e.Types) :
    (d.after c e).Editing view row field (e.typed cs) := by
  cases e with
  | key k now m =>
    rw [Desk.after, h.handleKey_text he]
    exact { h with editor := rfl }
  | _ => exact h.of_still (still_after c d rfl)

theorem Editing.run (h : d.Editing view row field cs) (c : Config) {es : List Event} (hes : ∀ e ∈ es, e.Types) :
    (d.run c es).Editing view row field (es.foldl Event.typed cs) := by
  induction es generalizing d cs with
  | nil => exact h
  | cons e es ih =>
    rw [List.forall_mem_cons] at hes
    exact ih (h.after c hes.1) hes.2

theorem Editing.quiet (h : d.Editing view row field cs) (c : Config) (he : e.Types) : d.Quiet c e where
  view := (h.after c he).effectiveMode_eq.trans h.effectiveMode_eq.symm
  state hfront := by
    cases e with
    | key k now m => rw [Desk.after, h.handleKey_text he]; rfl
    | tick now => exact congrArg Store.state (ticked_tick d now).store
    | _ => cases hfront
  stays := by
    rintro k now m rfl
    have hkey := h.handleKey_text he now m
    refine ⟨congrArg Prod.snd hkey, submitted_of_same ?_⟩
    rw [Desk.after, hkey]
    rfl

/-- Escape drops the text. -/
theorem Editing.cancelled (h : d.Editing view row field cs) (c : Config) (now : Int) (m : Moment) :
    (d.after c (.key .esc now m)).Closed view row ∧ (d.after c (.key .esc now m)).store = d.store := by
  rw [Desk.after, h.handleKey_eq rfl rfl]
  refine ⟨?_, rfl⟩
  exact {
    mode := congrArg (Option.getD · Mode.dashboard) h.under
    row := h.row
    editor := rfl
    under := rfl }

/-- Enter writes a text that is taken into the field. -/
theorem Editing.confirmed (h : d.Editing view row field cs) {drafts : Drafts}
    (hset : d.store.state.drafts.set field (String.ofList cs) = .ok drafts) (c : Config) (now : Int) (m : Moment) :
    (d.after c (.key .enter now m)).Closed view row ∧
      (d.after c (.key .enter now m)).store.state = { d.store.state with drafts := drafts } := by
  have hall : d.store.state.drafts.setAll [(field, String.ofList cs)] = (drafts, .ok ()) := by
    rw [Drafts.setAll, hset]
    rfl
  have hcommit : d.commitEdit = ((d.update (.drafts (.set [(field, String.ofList cs)]))).onFront (·.endEdit)).say .success
      (field.name ++ " updated") := by
    simp [commitEdit, h.editor, Update.reply, DraftEdit.apply, hall]
  rw [Desk.after, h.handleKey_eq rfl rfl]
  show Closed d.commitEdit view row ∧ d.commitEdit.store.state = _
  rw [hcommit]
  constructor
  · exact {
      mode := congrArg (Option.getD · Mode.dashboard) h.under
      row := h.row
      editor := rfl
      under := rfl }
  · exact congrArg (fun outcome : Drafts × Except Fault Unit => { d.store.state with drafts := outcome.1 }) hall

/-- A text that is refused stays. -/
theorem Editing.refused (h : d.Editing view row field cs) {fault : Fault}
    (hset : d.store.state.drafts.set field (String.ofList cs) = .error fault) (c : Config) (now : Int) (m : Moment) :
    (d.after c (.key .enter now m)).Editing view row field cs ∧
      (d.after c (.key .enter now m)).store.state = d.store.state := by
  have hall : d.store.state.drafts.setAll [(field, String.ofList cs)] = (d.store.state.drafts, .error fault) := by
    rw [Drafts.setAll, hset]
  have hcommit : d.commitEdit = (d.update (.drafts (.set [(field, String.ofList cs)]))).say .error fault.message := by
    simp [commitEdit, h.editor, Update.reply, DraftEdit.apply, hall]
  rw [Desk.after, h.handleKey_eq rfl rfl]
  show Editing d.commitEdit view row field cs ∧ d.commitEdit.store.state = _
  rw [hcommit]
  constructor
  · exact { h with }
  · exact congrArg (fun outcome : Drafts × Except Fault Unit => { d.store.state with drafts := outcome.1 }) hall

end

/-! ### From Enter to the end -/

/-- What comes of editing a field from some text on, and of Escape or Enter after that. -/
structure Edits (c : Config) (d : Desk) (view : Mode) (row : Nat) (field : Field) (cs : List Char) (es : List Event) :
    Prop where
  editing : (d.run c es).Editing view row field (es.foldl Event.typed cs)
  quiet : ∀ before e after, es = before ++ e :: after → (d.run c before).Quiet c e
  cancelled : ∀ now m,
    ((d.run c es).after c (.key .esc now m)).Closed view row ∧
      ((d.run c es).after c (.key .esc now m)).store = (d.run c es).store
  confirmed : ∀ now m drafts,
    (d.run c es).store.state.drafts.set field (String.ofList (es.foldl Event.typed cs)) = .ok drafts →
      ((d.run c es).after c (.key .enter now m)).Closed view row ∧
      ((d.run c es).after c (.key .enter now m)).store.state = { (d.run c es).store.state with drafts := drafts } ∧
      ∀ g, g ≠ field → drafts.get g = (d.run c es).store.state.drafts.get g
  refused : ∀ now m fault,
    (d.run c es).store.state.drafts.set field (String.ofList (es.foldl Event.typed cs)) = .error fault →
      ((d.run c es).after c (.key .enter now m)).Editing view row field (es.foldl Event.typed cs) ∧
      ((d.run c es).after c (.key .enter now m)).store.state = (d.run c es).store.state

section

variable {c : Config} {d : Desk} {view : Mode} {row : Nat} {field : Field} {cs : List Char}

theorem Editing.edits (h : d.Editing view row field cs) (c : Config) {es : List Event} (hes : ∀ e ∈ es, e.Types) :
    d.Edits c view row field cs es := by
  have hediting := h.run c hes
  exact {
    editing := hediting
    quiet := by
      rintro before e after rfl
      have hbefore := h.run c fun e he => hes e (List.mem_append_left _ he)
      exact hbefore.quiet c (hes e (List.mem_append_right _ List.mem_cons_self))
    cancelled := hediting.cancelled c
    confirmed := fun now m drafts hset =>
      ⟨(hediting.confirmed hset c now m).1, (hediting.confirmed hset c now m).2, (Drafts.get_of_set hset).2⟩
    refused := fun now m fault hset => hediting.refused hset c now m }

/-- Enter on a field opens the editor with the text of the field. -/
theorem handleKey_enter (hhelp : d.console.front.helpVisible = false)
    (hrow : d.console.front.selectedRow? = some (.field field)) (now : Int) (m : Moment) :
    d.handleKey .enter now m = (d.onFront (·.beginEdit field (d.store.state.drafts.get field)), false) := by
  have hview := Row.mode_of_field_mem (List.mem_of_getElem? hrow)
  have hactivate : d.activate now = d.onFront (·.beginEdit field (d.store.state.drafts.get field)) := by
    rw [activate, hrow]
  rw [handleKey, if_neg (by decide), if_neg (by decide), if_neg (by simp [hhelp])]
  rcases hview with hmode | hmode | hmode
  all_goals
    rw [hmode]
    exact congrArg (·, false) hactivate

theorem editing_enter (hhelp : d.console.front.helpVisible = false)
    (hrow : d.console.front.selectedRow? = some (.field field)) (c : Config) (now : Int) (m : Moment) :
    (d.after c (.key .enter now m)).Editing d.console.front.mode d.console.front.selection field
      (d.store.state.drafts.get field).toList := by
  rw [after, handleKey_enter hhelp hrow]
  exact {
    mode := rfl
    under := rfl
    row := rfl
    editor := by rw [String.ofList_toList]; rfl
    help := hhelp }

theorem quiet_enter (hhelp : d.console.front.helpVisible = false)
    (hrow : d.console.front.selectedRow? = some (.field field)) (c : Config) (now : Int) (m : Moment) :
    d.Quiet c (.key .enter now m) := by
  have hview := Row.mode_of_field_mem (List.mem_of_getElem? hrow)
  have hedit : d.console.front.mode ≠ .editField := by
    rintro hmode
    simp [hmode] at hview
  have hkey := handleKey_enter hhelp hrow now m
  exact {
    view := (editing_enter hhelp hrow c now m).effectiveMode_eq.trans (Front.effectiveMode_eq hedit).symm
    state := fun _ => by rw [after, hkey]; rfl
    stays := by
      rintro k now' m' ⟨⟩
      exact ⟨congrArg Prod.snd hkey, submitted_of_same (by rw [after, hkey]; rfl)⟩ }

/-- Enter on a field opens the editor with its text, and whatever is typed until Escape or Enter is text. A text that
    was refused can be typed on in the same way. -/
theorem edits_run (hhelp : d.console.front.helpVisible = false)
    (hrow : d.console.front.selectedRow? = some (.field field)) (c : Config) (now : Int) (m : Moment) :
    d.Quiet c (.key .enter now m) ∧
      (∀ es : List Event, (∀ e ∈ es, e.Types) →
        (d.after c (.key .enter now m)).Edits c d.console.front.mode d.console.front.selection field
          (d.store.state.drafts.get field).toList es) ∧
      ∀ (t : Desk) (cs : List Char) (es : List Event),
        t.Editing d.console.front.mode d.console.front.selection field cs → (∀ e ∈ es, e.Types) →
          t.Edits c d.console.front.mode d.console.front.selection field cs es :=
  ⟨quiet_enter hhelp hrow c now m, fun _ hes => (editing_enter hhelp hrow c now m).edits c hes,
    fun _ _ _ h hes => h.edits c hes⟩

end

/-- A press of a key without modifiers. -/
def pressed (code : KeyCode) : Event := .key { code := code } 0 ⟨0, 0, "00:00:00"⟩

/-- Someone is logged in, has gone to the orders and is at the amount. -/
def atAmount : Desk :=
  (start ((Store.load .unwritable).update (.session (some ⟨"demo-user", "mock-0"⟩))) 3000).run .initial
    [pressed (.char '2'), pressed .down, pressed .down]

/-- What is typed at the amount: a digit and, after a tick, a letter that quits elsewhere. -/
def typedAmount : List Event := [pressed (.char '5'), .tick 1, pressed (.char 'q')]

/-- An amount with a letter is refused and stays, and is taken once the letter is gone. -/
theorem edits_run_of_amount :
    let opened := atAmount.after .initial (pressed .enter)
    let refused := opened.run .initial (typedAmount ++ [pressed .enter])
    let taken := refused.run .initial [pressed .backspace, pressed .enter]
    (atAmount.console.front.helpVisible = false ∧ atAmount.console.front.selectedRow? = some (.field .amountCents) ∧
      ∀ e ∈ typedAmount, e.Types) ∧
    opened.Edits .initial atAmount.console.front.mode atAmount.console.front.selection .amountCents
      (atAmount.store.state.drafts.get .amountCents).toList typedAmount ∧
    refused.console.front.editor = some ⟨.amountCents, "100005q"⟩ ∧ refused.store.state.drafts.amountCents = 10000 ∧
    taken.console.front.editor = none ∧ taken.store.state.drafts.amountCents = 100005 := by
  intro opened refused taken
  have hhelp : atAmount.console.front.helpVisible = false := by decide +kernel
  have hrow : atAmount.console.front.selectedRow? = some (.field .amountCents) := by decide +kernel
  have htypes : ∀ e ∈ typedAmount, e.Types := by
    simp [typedAmount, pressed, Event.Types, KeyEvent.IsText]
  obtain ⟨-, hedits, -⟩ := edits_run hhelp hrow .initial 0 ⟨0, 0, "00:00:00"⟩
  exact ⟨⟨hhelp, hrow, htypes⟩, hedits typedAmount htypes, by decide +kernel, by decide +kernel, by decide +kernel,
    by decide +kernel⟩

end Desk

end TicketDesk.Terminal
