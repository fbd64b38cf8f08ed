import TicketDesk.Proofs.CommandLine.Job
import TicketDesk.Proofs.Fields
import TicketDesk.Proofs.Store.Slices
import TicketDesk.Proofs.Store.Writes

/-! # Commands that come to nothing

Most commands need a session, and some look at their arguments before they do anything. A command that is turned away
for either reason has sent nothing by then, and every text is kept as it was. An edit of the drafts is committed even
when it is refused, which writes the drafts that were there and so may change their text, but not what it holds. -/

namespace TicketDesk

/-! ### What the texts hold -/

/-- The text of the session holds one. -/
def Blobs.HasSession (blobs : Blobs) : Prop :=
  ∃ text session, blobs .session = some text ∧ Json.decode? Session.decoder text = some session

theorem Json.Decoder.of_nullable {α : Type} {decoder : Json.Decoder α} {depth : Nat} {w : Json.Written} {a : α}
    (h : nullable decoder depth w = some (some a)) : decoder depth w = some a := by
  cases w with
  | null => cases h
  | _ =>
    obtain ⟨a', ha', heq⟩ := Option.map_eq_some_iff.mp h
    rw [ha', heq]

/-- A text of `null` holds no session, no more than a text that cannot be read. -/
theorem State.session_ofBlobs_eq_none {blobs : Blobs} (h : ¬blobs.HasSession) : (State.ofBlobs blobs).session = none := by
  rw [Option.eq_none_iff_forall_ne_some]
  intro session hsession
  obtain ⟨text, htext, hdecode⟩ := Option.bind_eq_some_iff.mp (Option.join_eq_some_iff.mp hsession)
  obtain ⟨w, hw, hnullable⟩ := Option.bind_eq_some_iff.mp hdecode
  refine h ⟨text, session, htext, ?_⟩
  rw [Json.decode?, hw]
  exact Json.Decoder.of_nullable hnullable

namespace CommandLine

/-! ### Jobs that fail -/

section Failures

variable {s : Store} {job : Job}

theorem ends_withEntry_of_none {reference : String} {next : Entry → Job} (h : s.state.history.find? reference = none) :
    (withEntry reference next).Ends s s (.error ("No history entry '" ++ reference ++ "'")) := by
  refine .look ?_
  rw [h]
  exact Job.ends_fail s _

theorem ends_login_of_blank {username password : String}
    (h : (∀ ch ∈ username.toList, Text.isBlank ch = true) ∨ ∀ ch ∈ password.toList, Text.isBlank ch = true) :
    (login username password).Ends s s (.error Fault.blankCredentials.message) := by
  refine .moment fun m => ?_
  have hlogin : Session.login username password m.millis = .error .blankCredentials := by
    rw [← Text.trimBlanks_eq_nil_iff, ← Text.trimBlanks_eq_nil_iff] at h
    rw [Session.login, if_pos h]
  rw [hlogin]
  exact Job.ends_fail s Fault.blankCredentials.message

theorem ends_exec_of_path {c : Config} {service : Service} {method : Method} {path : String} {body label : Option String}
    (h : path.toList.head? ≠ some '/') :
    (exec c service method path body label).Ends s s (.error ("Path must start with '/', got '" ++ path ++ "'")) := by
  rw [exec, if_pos h]
  exact Job.ends_fail s _

theorem exists_ends_exec_of_body {c : Config} {service : Service} {method : Method} {path text : String}
    {label : Option String} (h : Json.read? text = none) :
    ∃ complaint, (exec c service method path (some text) label).Ends s s (.error complaint) := by
  by_cases hpath : path.toList.head? = some '/'
  · rw [exec, if_neg (not_not.mpr hpath)]
    simp only [h]
    exact ⟨_, Job.ends_fail s _⟩
  · exact ⟨_, ends_exec_of_path hpath⟩

/-- A refused edit ends a job once it is committed. -/
theorem ends_editDrafts_of_refused {edit : DraftEdit} {fault : Fault} (h : (edit.apply s.state.drafts).2 = .error fault) :
    (editDrafts edit job).Ends s (s.update (.drafts edit)) (.error fault.message) := by
  refine .look (.change ?_)
  rw [h]
  exact Job.ends_fail _ fault.message

end Failures

/-! ### Commands -/

/-- The commands that do not ask whether someone is logged in. -/
def Command.isOpen : Command → Bool
  | .tui => true
  | .login _ _ => true
  | .logout => true
  | _ => false

theorem Command.exists_withSession (c : Config) {command : Command} (h : command.isOpen = false) :
    ∃ next, command.job c = withSession next := by
  cases command with
  | tui => cases h
  | login username password => cases h
  | logout => cases h
  | _ => exact ⟨_, rfl⟩

/-- Texts that a store cannot tell apart when it is opened. -/
def Blobs.HoldSame (blobs blobs' : Blobs) : Prop := State.ofBlobs blobs = State.ofBlobs blobs'

/-- On a store that is opened on some texts a command fails, nothing is sent, and the texts that are kept are like those
    that were there. -/
structure Declined (c : Config) (b : Backend) (alike : Blobs → Blobs → Prop) (command : Command) (complaint : String) :
    Prop where
  fails : ∀ {σ : Type} (w : World σ) (x : σ), ((command.job c).run w (.load b) x).1 = .error complaint
  kept : ∀ {σ : Type} (w : World σ) (x : σ), alike ((command.job c).run w (.load b) x).2.1.backend.blobs b.blobs
  silent : ∀ {σ : Type} (w : World σ) (x : σ), (command.job c).sent w (.load b) x = []

variable {c : Config} {b : Backend} {alike : Blobs → Blobs → Prop} {command : Command} {complaint : String}

theorem Job.Ends.declined {t : Store} (h : (command.job c).Ends (.load b) t (.error complaint))
    (halike : alike t.backend.blobs b.blobs) : Declined c b alike command complaint where
  fails := h.outcome
  kept w x := by rw [h.store w x]; exact halike
  silent := h.silent

/-- A command that fails whoever is logged in fails as well when nobody is. -/
theorem exists_declined {next : Session → Job} (hjob : command.job c = withSession next) (hrefl : alike b.blobs b.blobs)
    (h : ∀ session, ∃ complaint t, (next session).Ends (.load b) t (.error complaint) ∧ alike t.backend.blobs b.blobs) :
    ∃ complaint, Declined c b alike command complaint := by
  cases hsession : (Store.load b).state.session with
  | none =>
    exact ⟨_, Job.Ends.declined (hjob ▸ ends_withSession_of_none hsession) hrefl⟩
  | some session =>
    obtain ⟨complaint, t, hends, halike⟩ := h session
    refine ⟨complaint, Job.Ends.declined (t := t) ?_ halike⟩
    rw [hjob]
    refine .look ?_
    rw [hsession]
    exact hends

/-- An edit that leaves the drafts as they were read writes a text that holds them, or the texts are as they were. -/
theorem holdSame_update (hspare : b.Sparing) {edit : DraftEdit}
    (h : (edit.apply (Store.load b).state.drafts).1 = (Store.load b).state.drafts) :
    Blobs.HoldSame ((Store.load b).update (.drafts edit)).backend.blobs b.blobs := by
  cases hwritable : (Store.load b).writable with
  | true =>
    have hblob := Store.blobs_update_of_writable hwritable (.drafts edit)
    rw [Blobs.HoldSame, State.ofBlobs, State.ofBlobs, hblob .session, hblob .history, hblob .drafts]
    have hdrafts : State.loadDrafts (some (((Store.load b).update (.drafts edit)).state.text .drafts)) =
        State.loadDrafts (b.blobs .drafts) :=
      (State.loadDrafts_toJson _).trans h
    exact congrArg (fun drafts => ({ State.ofBlobs b.blobs with drafts := drafts } : State)) hdrafts
  | false => exact congrArg State.ofBlobs (Store.blobs_update_of_sparing hspare hwritable (.drafts edit))

/-- What becomes of the commands that are turned away: the texts stay as they are, to the last character, but for the one
    that a refused edit of the drafts writes. That one holds the same drafts, unless the write fails and cuts it. -/
structure Declines (c : Config) (b : Backend) : Prop where
  notLoggedIn : ¬b.blobs.HasSession → ∀ command : Command, command.isOpen = false →
    Declined c b Eq command Fault.notLoggedIn.message
  blankLogin : ∀ username password : String,
    ((∀ ch ∈ username.toList, Text.isBlank ch = true) ∨ ∀ ch ∈ password.toList, Text.isBlank ch = true) →
      Declined c b Eq (.login username password) Fault.blankCredentials.message
  path : ∀ service method path body label, path.toList.head? ≠ some '/' →
    ∃ complaint, Declined c b Eq (.exec service method path body label) complaint
  body : ∀ service method path text label, Json.read? text = none →
    ∃ complaint, Declined c b Eq (.exec service method path (some text) label) complaint
  reference : ∀ reference, (Store.load b).state.history.find? reference = none →
    ∀ command, command = .showEntry reference ∨ command = .replayEntry reference →
      ∃ complaint, Declined c b Eq command complaint
  number : ∀ field value, field.isNumeric = true → (¬∃ n, Text.Holds value n) →
    ∃ complaint, Declined c b (fun after before => b.Sparing → Blobs.HoldSame after before) (.setDraft field value)
      complaint

/-- Under every configuration and on all texts, a command that is turned away comes to nothing. -/
theorem declines (c : Config) (b : Backend) : Declines c b where
  notLoggedIn hsession command hopen := by
    obtain ⟨next, hjob⟩ := command.exists_withSession c hopen
    exact Job.Ends.declined (hjob ▸ ends_withSession_of_none (State.session_ofBlobs_eq_none hsession)) rfl
  blankLogin username password h := by
    have hends : ((Command.login username password).job c).Ends (.load b) (.load b)
        (.error Fault.blankCredentials.message) := ends_login_of_blank h
    exact hends.declined rfl
  path _ _ _ _ _ h := exists_declined rfl rfl fun _ => ⟨_, _, ends_exec_of_path h, rfl⟩
  body _ _ _ _ _ h := exists_declined rfl rfl fun _ =>
    let ⟨complaint, hends⟩ := exists_ends_exec_of_body h
    ⟨complaint, _, hends, rfl⟩
  reference reference hfind command hcommand := by
    rcases hcommand with rfl | rfl
    · exact exists_declined rfl rfl fun _ => ⟨_, _, ends_withEntry_of_none hfind, rfl⟩
    · exact exists_declined rfl rfl fun _ => ⟨_, _, ends_withEntry_of_none hfind, rfl⟩
  number field value hfield hvalue := by
    refine exists_declined rfl (fun _ => rfl) fun _ => ?_
    have hrefused := Field.shown?_eq_none_iff.mpr ⟨hfield, hvalue⟩
    have hreply := Drafts.reply_edited_eq_error_iff (d := (Store.load b).state.drafts).mpr ⟨rfl, hfield, hvalue⟩
    exact ⟨_, _, ends_editDrafts_of_refused hreply, fun hspare =>
      holdSame_update hspare (Drafts.edited_of_refused hrefused)⟩

end CommandLine

end TicketDesk
