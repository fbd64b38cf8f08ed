import TicketDesk.Proofs.Terminal.Edits
import TicketDesk.View.Frame

/-! # The password

The password is shown as dots, and logging in asks of it whether it is blank. So of two terminals that differ in the
password alone, and not in its length, nobody can tell which is which, whatever is typed, sent and answered, as long as
at each login either both passwords are blank or neither is. Every operation but the login form does not heed the
password: it commutes with replacing it. -/

namespace TicketDesk

/-! ### Logging in -/

namespace Session

/-- A password without anything but blanks in it. -/
def IsBlank (p : String) : Prop := Text.trimBlanks p.toList = []

instance (p : String) : Decidable (IsBlank p) := inferInstanceAs (Decidable (Text.trimBlanks p.toList = []))

/-- Logging in makes no more of a password than whether it is blank. -/
theorem login_congr {p q : String} (h : IsBlank p ↔ IsBlank q) (username : String) (millis : Int64) :
    login username p millis = login username q millis := by
  rw [IsBlank, IsBlank] at h
  simp only [login, h]

end Session

namespace Terminal

/-! ### The front -/

namespace Front

/-- The front with another password typed in. -/
def withPassword (f : Front) (p : String) : Front := { f with login := { f.login with password := p } }

/-- An operation that does not heed the password. -/
def Heedless (op : Front → Front) : Prop := ∀ f p, op (f.withPassword p) = (op f).withPassword p

theorem heedless_switchTo (m : Mode) : Heedless (·.switchTo m) := by
  intro f p
  by_cases h : f.mode = m <;> simp [switchTo, withPassword, h]

theorem heedless_moveSelection (down : Bool) (n : Nat) : Heedless (·.moveSelection down n) := by
  intro f p
  by_cases h : f.mode = .history <;> simp [moveSelection, withPassword, h]

theorem heedless_clampHistory (n : Nat) : Heedless (·.clampHistory n) := by
  intro f p
  by_cases h : n ≤ f.historySelection <;> simp [clampHistory, withPassword, h]

end Front

/-- How long a text is after a key depends on the text by its length only. -/
theorem KeyEvent.length_edit (e : KeyEvent) {s t : String} (h : s.length = t.length) :
    (e.edit s).length = (e.edit t).length := by
  rw [edit, edit]
  split
  · rw [String.length_ofList, String.length_ofList, List.length_dropLast, List.length_dropLast, String.length_toList,
      String.length_toList, h]
  · split
    · exact h
    · rw [String.length_push, String.length_push, h]
  · exact h

/-- Only Enter, without modifiers, hands in the login form. -/
theorem Binding.eq_enter_of_submit {e : KeyEvent} (h : Binding.command? .login e = some .submit) :
    e.code = .enter ∧ e.modifiers = {} := by
  rw [command?] at h
  split at h
  · next heffective =>
    obtain ⟨b, hb, hcommand⟩ := Option.map_eq_some_iff.mp h
    have hkey : b.key = e.code := by simpa using List.find?_some hb
    have hall : ∀ b ∈ ofMode .login, b.command = .submit → b.key = .enter := by decide
    have hcode := hkey.symm.trans (hall b (List.mem_of_find?_eq_some hb) hcommand)
    rw [KeyEvent.effective, hcode] at heffective
    exact ⟨hcode, heffective⟩
  · cases h

namespace Desk

def password (d : Desk) : String := d.console.front.login.password

def withPassword (d : Desk) (p : String) : Desk := d.onFront (·.withPassword p)

/-! ### Operations that do not heed the password -/

def Heedless (op : Desk → Desk) : Prop := ∀ d p, op (d.withPassword p) = (op d).withPassword p

theorem heedless_onFront {op : Front → Front} (h : Front.Heedless op) : Heedless (·.onFront op) :=
  fun d p => congrArg (fun f => { d with console := { d.console with front := f } }) (h d.console.front p)

theorem Heedless.comp {op first : Desk → Desk} (h : Heedless op) (hfirst : Heedless first) :
    Heedless fun d => op (first d) :=
  fun d p => (congrArg op (hfirst d p)).trans (h (first d) p)

theorem heedless_say (level : Level) (message : String) : Heedless (·.say level message) := fun _ _ => rfl

theorem heedless_update (u : Update) : Heedless (·.update u) := fun _ _ => rfl

theorem heedless_setPolling (on : Bool) (now : Int) : Heedless (·.setPolling on now) := fun _ _ => rfl

theorem heedless_togglePolling (now : Int) : Heedless (·.togglePolling now) := fun _ _ => rfl

theorem heedless_logout (now : Int) : Heedless (·.logout now) :=
  (heedless_say _ _).comp <| (heedless_onFront (Front.heedless_switchTo .login)).comp <|
    (heedless_update _).comp (heedless_setPolling false now)

theorem heedless_commitEdit : Heedless commitEdit := by
  intro d p
  unfold commitEdit
  have heditor : (d.withPassword p).console.front.editor = d.console.front.editor := rfl
  rw [heditor]
  split
  · rfl
  · dsimp only
    have hstore : (d.withPassword p).store = d.store := rfl
    rw [hstore]
    split <;> rfl

theorem heedless_activate (now : Int) : Heedless (·.activate now) := by
  intro d p
  dsimp only [activate]
  have hrow : (d.withPassword p).console.front.selectedRow? = d.console.front.selectedRow? := rfl
  rw [hrow]
  split <;> rfl

theorem heedless_replaySelected : Heedless replaySelected := by
  intro d p
  unfold replaySelected
  have hentry : (d.withPassword p).store.state.history.entries[(d.withPassword p).console.front.historySelection]? =
      d.store.state.history.entries[d.console.front.historySelection]? := rfl
  rw [hentry]
  split <;> rfl

theorem heedless_clearHistory : Heedless clearHistory :=
  (heedless_say _ _).comp <| (heedless_onFront (Front.heedless_clampHistory 0)).comp (heedless_update _)

theorem heedless_editKey (e : KeyEvent) (c : Option Command) : Heedless (·.editKey e c) := by
  intro d p
  dsimp only [editKey]
  split
  · rfl
  · exact heedless_commitEdit d p
  · rfl

/-- What does not heed the password leaves it as it is. -/
theorem Heedless.password_eq {op : Desk → Desk} (h : Heedless op) (d : Desk) : (op d).password = d.password := by
  have hsame : op d = (op d).withPassword d.password := h d d.password
  rw [hsame]
  rfl

/-! ### Keys -/

/-- What a key does, and whether the user quits with it, does not heed the password. -/
def HeedlessKey (press : Desk → Desk × Bool) : Prop :=
  ∀ d p, press (d.withPassword p) = ((press d).1.withPassword p, (press d).2)

theorem Heedless.key {op : Desk → Desk} (h : Heedless op) (quits : Bool) : HeedlessKey fun d => (op d, quits) :=
  fun d p => congrArg (·, quits) (h d p)

theorem heedless_viewCommand (c : Command) (now : Int) : HeedlessKey (·.viewCommand c now) := by
  have hmove (down : Bool) : Heedless fun d => d.onFront (·.moveSelection down d.historyLength) :=
    fun d => heedless_onFront (Front.heedless_moveSelection down d.historyLength) d
  have htab (places : Nat) : Heedless fun d => d.onFront fun f => f.switchTo (f.mode.tabAfter places) :=
    heedless_onFront fun f => Front.heedless_switchTo (f.mode.tabAfter places) f
  cases c with
  | navigateUp => exact (hmove false).key false
  | navigateDown => exact (hmove true).key false
  | nextTab => exact (htab 1).key false
  | previousTab => exact (htab (Mode.tabs.length - 1)).key false
  | select => exact (heedless_activate now).key false
  | togglePolling => exact (heedless_togglePolling now).key false
  | replay => exact heedless_replaySelected.key false
  | clearHistory => exact heedless_clearHistory.key false
  | logout => exact (heedless_logout now).key false
  | _ => exact fun _ _ => rfl

theorem heedless_viewKey (e : KeyEvent) (c : Option Command) (now : Int) : HeedlessKey (·.viewKey e c now) := by
  intro d p
  dsimp only [viewKey]
  split
  · next tab _ => exact (heedless_onFront (Front.heedless_switchTo tab)).key false d p
  · split
    · next c => exact heedless_viewCommand c now d p
    · rfl

/-! ### The login form -/

theorem submitLogin_withPassword {d : Desk} {p : String} (hp : Session.IsBlank p ↔ Session.IsBlank d.password)
    (m : Moment) : (d.withPassword p).submitLogin m = (d.submitLogin m).withPassword p := by
  have hsame : Session.login (d.withPassword p).console.front.login.username
      (d.withPassword p).console.front.login.password m.millis =
        Session.login d.console.front.login.username d.console.front.login.password m.millis :=
    Session.login_congr hp _ _
  rw [submitLogin, submitLogin, hsame]
  split
  · next session _ =>
    exact congrArg (·.say .success ("Logged in as " ++ session.username))
      (heedless_onFront (Front.heedless_switchTo .dashboard) (d.update (.session (some session))) p)
  · rfl

/-- The event hands in the login form. -/
def HandsIn (d : Desk) : Event → Prop
  | .key e _ _ => e = { code := .enter } ∧ d.console.front.mode = .login ∧ d.console.front.helpVisible = false
  | _ => False

/-- Two terminals that differ in the password at most, and not in how many characters it has. -/
structure Alike (d t : Desk) : Prop where
  length : t.password.length = d.password.length
  rest : t = d.withPassword t.password

theorem alike_withPassword {d : Desk} {p : String} (h : p.length = d.password.length) : d.Alike (d.withPassword p) :=
  ⟨h, rfl⟩

theorem Heedless.alike {op : Desk → Desk} (h : Heedless op) {d t : Desk} (hd : d.Alike t) : (op d).Alike (op t) where
  length := by rw [h.password_eq, h.password_eq, hd.length]
  rest := by
    rw [h.password_eq, ← h]
    exact congrArg op hd.rest

/-- A key does the same to both terminals, and the user quits with it in both or in neither. -/
def AlikeKey (press : Desk → Desk × Bool) (d t : Desk) : Prop := (press d).1.Alike (press t).1 ∧ (press t).2 = (press d).2

theorem HeedlessKey.alike {press : Desk → Desk × Bool} (h : HeedlessKey press) {d t : Desk} (hd : d.Alike t) :
    AlikeKey press d t := by
  have hop : Heedless fun d => (press d).1 := fun d p => congrArg Prod.fst (h d p)
  refine ⟨hop.alike hd, ?_⟩
  rw [hd.rest, h]

theorem password_submitLogin (d : Desk) (m : Moment) : (d.submitLogin m).password = d.password := by
  have hsame : d.submitLogin m = (d.submitLogin m).withPassword d.password :=
    submitLogin_withPassword (p := d.password) Iff.rfl m
  rw [hsame]
  rfl

/-- What is typed goes into both forms at the same place. -/
theorem alike_type {d t : Desk} (hd : d.Alike t) (e : KeyEvent) :
    Alike (d.onFront fun f => { f with login := f.login.editFocused e.edit })
      (t.onFront fun f => { f with login := f.login.editFocused e.edit }) := by
  obtain ⟨p, rfl⟩ : ∃ p, t = d.withPassword p := ⟨t.password, hd.rest⟩
  have hp : p.length = d.password.length := hd.length
  cases hfocus : d.console.front.login.focus with
  | username =>
    constructor
    · simpa [password, withPassword, onFront, Front.withPassword, LoginForm.editFocused, hfocus] using hp
    · simp [password, withPassword, onFront, Front.withPassword, LoginForm.editFocused, hfocus]
  | password =>
    constructor
    · simpa [password, withPassword, onFront, Front.withPassword, LoginForm.editFocused, hfocus] using e.length_edit hp
    · simp [password, withPassword, onFront, Front.withPassword, LoginForm.editFocused, hfocus]

theorem alike_loginKey {d t : Desk} (hd : d.Alike t) (e : KeyEvent) (c : Option Command) (m : Moment)
    (hblank : c = some .submit → (Session.IsBlank t.password ↔ Session.IsBlank d.password)) :
    AlikeKey (·.loginKey e c m) d t := by
  obtain ⟨p, rfl⟩ : ∃ p, t = d.withPassword p := ⟨t.password, hd.rest⟩
  have hp : p.length = d.password.length := hd.length
  dsimp only [AlikeKey, loginKey]
  split
  · exact ⟨hd, rfl⟩
  · exact ⟨alike_withPassword hp, rfl⟩
  · have hsubmit : (d.withPassword p).submitLogin m = (d.submitLogin m).withPassword p :=
      submitLogin_withPassword (hblank rfl) m
    rw [hsubmit]
    exact ⟨alike_withPassword (hp.trans (congrArg String.length (password_submitLogin d m).symm)), rfl⟩
  · exact ⟨alike_type hd e, rfl⟩

/-- A key is handled alike. -/
theorem alike_handleKey {d t : Desk} (hd : d.Alike t) (e : KeyEvent) (now : Int) (m : Moment)
    (hblank : d.HandsIn (.key e now m) → (Session.IsBlank t.password ↔ Session.IsBlank d.password)) :
    AlikeKey (·.handleKey e now m) d t := by
  have hmode : t.console.front.mode = d.console.front.mode := by rw [hd.rest]; rfl
  have hvisible : t.console.front.helpVisible = d.console.front.helpVisible := by rw [hd.rest]; rfl
  have hclose : HeedlessKey fun d => (d.onFront fun f => { f with helpVisible := false }, false) := fun _ _ => rfl
  dsimp only [AlikeKey, handleKey]
  rw [hmode, hvisible]
  split
  · exact ⟨hd, rfl⟩
  next hpress =>
  split
  · exact ⟨hd, rfl⟩
  split
  · split
    · exact hclose.alike hd
    · exact ⟨hd, rfl⟩
  next hhelp =>
  split
  · next hlogin =>
    rw [hlogin]
    refine alike_loginKey hd e _ m fun hsubmit => hblank ⟨?_, hlogin, by simpa using hhelp⟩
    obtain ⟨hcode, hmodifiers⟩ := Binding.eq_enter_of_submit hsubmit
    have hkind : e.kind = .press := by simpa using hpress
    calc e = ⟨e.code, e.modifiers, e.kind⟩ := rfl
      _ = { code := .enter } := by rw [hcode, hmodifiers, hkind]
  · exact ((heedless_editKey e _).key false).alike hd
  · exact (heedless_viewKey e _ now).alike hd

/-! ### Ticks and the worker -/

theorem heedless_applyReport (r : Report) : Heedless (·.applyReport r) := by
  have hflag : Heedless fun d =>
      if r.task = Request.pollLabel then { d with console := { d.console with pollInFlight := false } } else d := by
    intro d p
    dsimp only
    split <;> rfl
  have htold : Heedless fun d =>
      (d.say (if r.isOk then .success else .error) r.summary).onFront (·.clampHistory d.historyLength) :=
    fun d => heedless_onFront (Front.heedless_clampHistory d.historyLength) (d.say _ _)
  intro d p
  dsimp only [applyReport]
  split
  · exact hflag d p
  · exact htold.comp hflag d p

theorem heedless_foldl_applyReport (rs : List Report) : Heedless (rs.foldl applyReport) := by
  induction rs with
  | nil => exact fun _ _ => rfl
  | cons r rs ih => exact ih.comp (heedless_applyReport r)

theorem heedless_takeReports : Heedless takeReports := by
  intro d p
  have htaken := heedless_foldl_applyReport d.console.runner.reports
    { d with console := { d.console with runner := d.console.runner.drain.2 } } p
  exact congrArg (·.onFront fun f => { f with pendingTasks := d.console.runner.drain.2.pending }) htaken

theorem heedless_leavePolling (now : Int) : Heedless (·.leavePolling now) := by
  intro d p
  have heffective : (d.withPassword p).console.front.effectiveMode = d.console.front.effectiveMode := rfl
  have hpoller : (d.withPassword p).console.poller = d.console.poller := rfl
  dsimp only [leavePolling]
  rw [heffective, hpoller]
  split <;> rfl

theorem heedless_firePoll (now : Int) : Heedless (·.firePoll now) := by
  intro d p
  have hpoller : (d.withPassword p).console.poller = d.console.poller := rfl
  have hout : (d.withPassword p).console.pollInFlight = d.console.pollInFlight := rfl
  dsimp only [firePoll]
  rw [hpoller, hout]
  split <;> rfl

theorem heedless_tick (now : Int) : Heedless (·.tick now) :=
  (heedless_firePoll now).comp <| (heedless_leavePolling now).comp heedless_takeReports

theorem heedless_after (c : Config) {e : Event} (he : e.isFront = false) : Heedless (·.after c e) := by
  intro d p
  cases e with
  | key e now m => cases he
  | tick now => cases he
  | begin => rfl
  | work reply moment clock =>
    have hrunning : (d.withPassword p).console.runner.running = d.console.runner.running := rfl
    dsimp only [after]
    rw [hrunning]
    split <;> rfl
  | report => rfl

end Desk

end Terminal

/-! ### Frames -/

namespace View
open Screen Terminal

theorem putView_withPassword {f : Front} {p : String} (hp : p.length = f.login.password.length) (g : Grid) (a : Area)
    (s : State) : putView g a (f.withPassword p) s = putView g a f s := by
  have heffective : (f.withPassword p).effectiveMode = f.effectiveMode := rfl
  rw [putView, putView, heffective]
  split
  · simp only [putLogin, Front.withPassword, hp]
  all_goals rfl

/-- A frame shows the length of the password and no more of it. -/
theorem draw_withPassword {f : Front} {p : String} (hp : p.length = f.login.password.length) (width height : Nat)
    (s : State) : draw width height (f.withPassword p) s = draw width height f s := by
  simp only [draw, putView_withPassword hp]
  rfl

end View

namespace Terminal.Desk

/-! ### Runs -/

variable {c : Config} {d t : Desk}

theorem Alike.after (hd : d.Alike t) (c : Config) (e : Event)
    (hblank : d.HandsIn e → (Session.IsBlank t.password ↔ Session.IsBlank d.password)) :
    (d.after c e).Alike (t.after c e) := by
  cases e with
  | key e now m => exact (alike_handleKey hd e now m hblank).1
  | tick now => exact (heedless_tick now).alike hd
  | _ => exact (heedless_after c rfl).alike hd

theorem Alike.store (hd : d.Alike t) : t.store = d.store := by
  rw [hd.rest]
  rfl

theorem Alike.frame (hd : d.Alike t) (width height : Nat) :
    View.draw width height t.console.front t.store.state = View.draw width height d.console.front d.store.state := by
  have hfront : t.console.front = d.console.front.withPassword t.password := congrArg (·.console.front) hd.rest
  rw [hd.store, hfront, View.draw_withPassword hd.length]

theorem Alike.outgoing (hd : d.Alike t) (e : Event) : t.outgoing e = d.outgoing e := by
  rw [hd.rest]
  cases e <;> rfl

/-- Whether the user quits with an event. -/
def quits (d : Desk) : Event → Bool
  | .key e now m => (d.handleKey e now m).2
  | _ => false

theorem Alike.quits (hd : d.Alike t) (e : Event)
    (hblank : d.HandsIn e → (Session.IsBlank t.password ↔ Session.IsBlank d.password)) : t.quits e = d.quits e := by
  cases e with
  | key e now m => exact (alike_handleKey hd e now m hblank).2
  | _ => rfl

/-- Whenever the form is handed in during a run of one terminal, its password and that of the other are both blank,
    or neither is. -/
def AgreesOnLogins (c : Config) (d t : Desk) (es : List Event) : Prop :=
  ∀ before e, before ++ [e] <+: es → (d.run c before).HandsIn e →
    (Session.IsBlank (t.run c before).password ↔ Session.IsBlank (d.run c before).password)

/-- What comes of a run on two terminals, as far as anybody can see who does not look at what is typed. -/
structure Unseen (c : Config) (d t : Desk) (es : List Event) : Prop where
  alike : (d.run c es).Alike (t.run c es)
  frame : ∀ width height, View.draw width height (t.run c es).console.front (t.run c es).store.state =
    View.draw width height (d.run c es).console.front (d.run c es).store.state
  /-- Session, drafts, history, result and health are the same, the texts of the backend too, and what was written. -/
  store : (t.run c es).store = (d.run c es).store
  sent : collect c outgoing t es = collect c outgoing d es
  quits : collect c (fun d e => [d.quits e]) t es = collect c (fun d e => [d.quits e]) d es

/-- Nobody can tell two passwords of the same length apart, in no step of a run in which they are both blank or both not
    blank whenever somebody logs in. -/
theorem password_unseen (hd : d.Alike t) {es : List Event} (hlogins : AgreesOnLogins c d t es) {part : List Event}
    (hpart : part <+: es) : Unseen c d t part := by
  induction part using List.reverseRecOn with
  | nil => exact { alike := hd, frame := hd.frame, store := hd.store, sent := rfl, quits := rfl }
  | append_singleton part e ih =>
    have h := ih ((List.prefix_append part [e]).trans hpart)
    have hblank := hlogins part e hpart
    have hafter : ((d.run c (part ++ [e])).Alike (t.run c (part ++ [e]))) := by
      rw [run_concat, run_concat]
      exact h.alike.after c e hblank
    exact {
      alike := hafter
      frame := hafter.frame
      store := hafter.store
      sent := by rw [collect_concat, collect_concat, h.sent, h.alike.outgoing]
      quits := by rw [collect_concat, collect_concat, h.quits, h.alike.quits e hblank] }

/-- Two operators type on after six characters of their own, and log in. -/
theorem password_unseen_login :
    let d := start (.load (.reliable fun _ => none)) 3000
    let t := d.withPassword "geheim"
    let es : List Event := [.key { code := .tab } 0 ⟨0, 0, ""⟩, .key { code := .char 'é' } 1 ⟨1, 0, ""⟩,
      .key { code := .enter } 2 ⟨2, 0, ""⟩, .tick 50]
    d.Alike t ∧ AgreesOnLogins .initial d t es ∧ Unseen .initial d t es ∧
      (d.run .initial es).store.state.session.isSome = true := by
  intro d t es
  have hd : d.Alike t := alike_withPassword (p := "geheim") (by decide)
  have hlogins : AgreesOnLogins .initial d t es := by
    intro before e hpart _
    have hall : ∀ n ≤ 4, ¬Session.IsBlank (t.run .initial (es.take n)).password ∧
        ¬Session.IsBlank (d.run .initial (es.take n)).password := by
      decide
    obtain ⟨hn, hnot⟩ := hall before.length (by simpa [es] using ((List.prefix_append before [e]).trans hpart).length_le)
    have htake := List.prefix_iff_eq_take.mp ((List.prefix_append before [e]).trans hpart)
    rw [← htake] at hn hnot
    exact iff_of_false hn hnot
  exact ⟨hd, hlogins, password_unseen hd hlogins (List.prefix_refl es), by decide⟩

end Terminal.Desk

end TicketDesk
