import TicketDesk.Terminal.Front

/-! # The front in order

The editor is open in its own mode and in no other, over a view that has fields; the login mode is the mode
without a session; both cursors stay inside their lists; and the help lies over a tab. Each operation of the
front keeps this order, under the condition under which the terminal does it. -/

namespace TicketDesk.Terminal

/-! ### Rows and tabs -/

/-- Only three views have fields. -/
theorem Row.mode_of_field_mem {m : Mode} {f : Field} (h : .field f ∈ Row.ofMode m) :
    m = .orders ∨ m = .inventory ∨ m = .booking := by
  cases m with
  | orders => exact Or.inl rfl
  | inventory => exact Or.inr (Or.inl rfl)
  | booking => exact Or.inr (Or.inr rfl)
  | dashboard => simp [Row.ofMode] at h
  | _ => simp [Row.ofMode] at h

theorem Mode.isTab_tabAfter {m : Mode} (h : m.isTab = true) (places : Nat) : (m.tabAfter places).isTab = true := by
  rw [tabAfter]
  split
  · next i _ =>
    cases hget : tabs[(i + places) % tabs.length]? with
    | none => exact h
    | some tab => exact List.contains_iff_mem.mpr (List.mem_of_getElem? hget)
  · exact h

theorem Mode.isTab_of_ofTabNumber? {n : Nat} {m : Mode} (h : Mode.ofTabNumber? n = some m) : m.isTab = true := by
  cases n with
  | zero => cases h
  | succ n => exact List.contains_iff_mem.mpr (List.mem_of_getElem? h)

theorem Mode.isTab_iff {m : Mode} : m.isTab = true ↔ m ≠ .login ∧ m ≠ .editField := by
  cases m <;> decide

namespace Front

theorem moved_lt {cursor length : Nat} (down : Bool) (h : 0 < length) : moved down cursor length < length := by
  rw [moved, if_neg (by omega)]
  split <;> exact Nat.mod_lt _ h

theorem moved_valid (down : Bool) (cursor length : Nat) :
    moved down cursor length = 0 ∨ moved down cursor length < length := by
  rcases Nat.eq_zero_or_pos length with rfl | h
  · exact Or.inl rfl
  · exact Or.inr (moved_lt down h)

theorem effectiveMode_eq {f : Front} (hm : f.mode ≠ .editField) : f.effectiveMode = f.mode := by
  rw [effectiveMode]
  split
  · next heq => exact absurd heq hm
  · rfl

/-! ### The order -/

/-- The front of a terminal where this session is on, or none, and the history has so many entries. -/
structure Proper (f : Front) (session : Option Session) (historyLength : Nat) : Prop where
  editing : f.mode = .editField ↔ f.editor.isSome = true
  returning : f.editor.isSome = true ↔ f.returnMode.isSome = true
  under : ∀ m, f.returnMode = some m → m = .orders ∨ m = .inventory ∨ m = .booking
  login : f.mode = .login ↔ session = none
  selection : f.selection = 0 ∨ f.selection < (Row.ofMode f.effectiveMode).length
  cursor : f.historySelection = 0 ∨ f.historySelection < historyLength
  help : f.helpVisible = true → f.mode.isTab = true

section

variable {f : Front} {session : Option Session} {n : Nat} (h : f.Proper session n)

include h

theorem Proper.closed (hm : f.mode ≠ .editField) : f.editor = none ∧ f.returnMode = none := by
  have heditor : ¬f.editor.isSome = true := fun he => hm (h.editing.mpr he)
  have hreturn : ¬f.returnMode.isSome = true := fun hr => heditor (h.returning.mpr hr)
  exact ⟨by simpa using heditor, by simpa using hreturn⟩

theorem Proper.of_le {k : Nat} (hle : n ≤ k) : f.Proper session k :=
  { h with cursor := h.cursor.imp id fun hlt => Nat.lt_of_lt_of_le hlt hle }

theorem Proper.say (level : Level) (message : String) : (f.say level message).Proper session n := { h with }

theorem Proper.clampHistory (k : Nat) : (f.clampHistory k).Proper session k := by
  rw [Front.clampHistory]
  split
  · exact { h with cursor := by dsimp only; omega }
  · exact { h with cursor := by omega }

/-- Another mode than the editor's is gone to from one, with the session that goes with it. -/
theorem Proper.switchTo {m : Mode} {session' : Option Session} (hm : f.mode ≠ .editField) (hhelp : f.helpVisible = false)
    (hedit : m ≠ .editField) (hlogin : m = .login ↔ session' = none) : (f.switchTo m).Proper session' n := by
  obtain ⟨heditor, hreturn⟩ := h.closed hm
  rw [Front.switchTo]
  split
  · next heq => exact { h with login := heq ▸ hlogin }
  · exact {
      editing := by simp [hedit, heditor]
      returning := by simp [heditor, hreturn]
      under := fun m hsome => by simp [hreturn] at hsome
      login := hlogin
      selection := Or.inl rfl
      cursor := h.cursor
      help := fun hsome => by simp [hhelp] at hsome }

theorem Proper.moveSelection (hm : f.mode ≠ .editField) (down : Bool) : (f.moveSelection down n).Proper session n := by
  rw [Front.moveSelection]
  split
  · exact { h with cursor := moved_valid down _ _ }
  · generalize hk : moved down f.selection (Row.ofMode f.mode).length = k
    have hvalid : k = 0 ∨ k < (Row.ofMode f.mode).length := hk ▸ moved_valid down _ _
    exact { h with selection := by rwa [effectiveMode_eq (f := { f with selection := k }) hm] }

theorem Proper.beginEdit {field : Field} (hrow : f.selectedRow? = some (.field field)) (hhelp : f.helpVisible = false)
    (text : String) : (f.beginEdit field text).Proper session n := by
  have hmem : .field field ∈ Row.ofMode f.mode := List.mem_of_getElem? hrow
  have hview := Row.mode_of_field_mem hmem
  have hlt : f.selection < (Row.ofMode f.mode).length := (List.getElem?_eq_some_iff.mp hrow).1
  have hlogin : f.mode ≠ .login := by rintro heq; simp [heq] at hview
  exact {
    editing := by simp [Front.beginEdit]
    returning := by simp [Front.beginEdit]
    under := fun m hsome => by
      obtain rfl := Option.some.inj hsome
      exact hview
    login := ⟨(fun hmode => by cases hmode), fun hnone => absurd (h.login.mpr hnone) hlogin⟩
    selection := Or.inr hlt
    cursor := h.cursor
    help := fun hsome => by simp [Front.beginEdit, hhelp] at hsome }

/-- The editor gives way to the view under it. -/
theorem Proper.endEdit (hm : f.mode = .editField) : f.endEdit.Proper session n := by
  obtain ⟨m, hreturn⟩ := Option.isSome_iff_exists.mp (h.returning.mp (h.editing.mp hm))
  have hview := h.under m hreturn
  have hedit : m ≠ .editField := by rcases hview with rfl | rfl | rfl <;> decide
  have hlogin : m ≠ .login := by rcases hview with rfl | rfl | rfl <;> decide
  have hsession : session ≠ none := fun hnone => by simpa [hm] using h.login.mpr hnone
  have hhelp : ¬f.helpVisible = true := fun hsome => (Mode.isTab_iff.mp (h.help hsome)).2 hm
  have hend : f.endEdit = { f with mode := m, returnMode := none, editor := none } := by
    rw [Front.endEdit, hreturn, Option.getD_some]
  rw [hend]
  exact {
    editing := by simp [hedit]
    returning := by simp
    under := fun _ hsome => by cases hsome
    login := ⟨fun hmode => absurd hmode hlogin, fun hnone => absurd hnone hsession⟩
    selection := by
      rw [effectiveMode_eq (f := { f with mode := m, returnMode := none, editor := none }) hedit]
      have hselection := h.selection
      rwa [effectiveMode, hm, hreturn] at hselection
    cursor := h.cursor
    help := fun hsome => absurd hsome hhelp }

/-- What is typed into the editor does not matter. -/
theorem Proper.mapEditor (edit : FieldEditor → FieldEditor) :
    Proper { f with editor := f.editor.map edit } session n :=
  { h with
    editing := by rw [Option.isSome_map]; exact h.editing
    returning := by rw [Option.isSome_map]; exact h.returning }

end

/-! ### What the front shows of the rest -/

/-- Two fronts show the same of the poller and of the tasks that are out. -/
def ShowsAs (f g : Front) : Prop := f.polling = g.polling ∧ f.pendingTasks = g.pendingTasks

theorem showsAs_switchTo (f : Front) (m : Mode) : (f.switchTo m).ShowsAs f := by
  rw [switchTo]
  split <;> exact ⟨rfl, rfl⟩

theorem showsAs_moveSelection (f : Front) (down : Bool) (n : Nat) : (f.moveSelection down n).ShowsAs f := by
  rw [moveSelection]
  split <;> exact ⟨rfl, rfl⟩

theorem showsAs_clampHistory (f : Front) (n : Nat) : (f.clampHistory n).ShowsAs f := by
  rw [clampHistory]
  split <;> exact ⟨rfl, rfl⟩

end Front

end TicketDesk.Terminal
