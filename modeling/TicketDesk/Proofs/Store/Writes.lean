import Mathlib.Data.List.Induction
import TicketDesk.Proofs.Store.Slices

/-! # Writes that go wrong

Each write of a store may go wrong on its own. Nobody who does not look into the backend notices: states, replies
and commits are those of a store whose writes all do what they should. In a backend whose writes keep to the text
of their key, that text is what the last write of its slice left, so the text of the slice as it was then if this
write succeeded. A write that failed may have left the text cut, though, and with it the last one that was saved
is gone. -/

namespace TicketDesk

/-- The key under which a slice is persisted, if it is. -/
def Slice.key? : Slice → Option Key
  | .session => some .session
  | .drafts => some .drafts
  | .history => some .history
  | .result => none
  | .health => none

/-- The text of the slice that a key stands for. -/
def State.text (s : State) : Key → String
  | .session => (match s.session with | some x => x.toJson | none => .null).write
  | .history => s.history.toJson.write
  | .drafts => s.drafts.toJson.write

theorem State.text_ne_empty (s : State) (key : Key) : s.text key ≠ "" := by
  cases key <;> exact Json.write_ne_empty _

theorem State.blob?_eq (s : State) (slice : Slice) : s.blob? slice = slice.key?.map fun key => (key, s.text key) := by
  cases slice <;> rfl

namespace Backend

variable {b : Backend} {key k : Key} {blob : String}

/-- A write that goes wrong says so, and changes no text but that of its key. -/
structure Confined (b : Backend) : Prop where
  fails : ∀ n, b.accepts n = false → ∀ key blob texts, (b.mishap n key blob texts).1 ≠ .ok ()
  others : ∀ n, b.accepts n = false → ∀ key blob texts k, k ≠ key → (b.mishap n key blob texts).2 k = texts k

/-- A write that goes wrong leaves all texts as they are. -/
def Sparing (b : Backend) : Prop :=
  ∀ n, b.accepts n = false → ∀ key blob texts, (b.mishap n key blob texts).2 = texts

theorem sparing_of_accepts (h : ∀ n, b.accepts n = true) : b.Sparing := by
  intro n hn
  rw [h n] at hn
  cases hn

theorem blobs_save_of_accepts (h : b.accepts b.writes = true) (key : Key) (blob : String) (k : Key) :
    (b.save key blob).blobs k = if k = key then some blob else b.blobs k := by
  simp [save, write, h]

theorem blobs_save_of_not_accepts (h : b.accepts b.writes = false) (key : Key) (blob : String) :
    (b.save key blob).blobs = (b.mishap b.writes key blob b.blobs).2 := by
  simp [save, write, h]

theorem Confined.write_eq_ok_iff (h : b.Confined) : (b.write key blob).1 = .ok () ↔ b.accepts b.writes = true := by
  cases haccepts : b.accepts b.writes with
  | true => simp [write, haccepts]
  | false => simpa [write, haccepts] using h.fails b.writes haccepts key blob b.blobs

theorem Confined.blobs_save_of_ne (h : b.Confined) (hk : k ≠ key) : (b.save key blob).blobs k = b.blobs k := by
  cases haccepts : b.accepts b.writes with
  | true => rw [blobs_save_of_accepts haccepts, if_neg hk]
  | false => rw [blobs_save_of_not_accepts haccepts, h.others _ haccepts _ _ _ k hk]

end Backend

namespace Store

variable {s t : Store} {u : Update} {key : Key}

/-- Whether the next write of a store does what it should. -/
def writable (s : Store) : Bool := s.backend.accepts s.backend.writes

/-- An update commits the slice of a key, and the write that this leads to says that it succeeded. -/
def Saves (s : Store) (u : Update) (key : Key) : Prop :=
  u.slice.key? = some key ∧ (s.backend.write key ((u.apply s.state).text key)).1 = .ok ()

/-- No update of a run commits the slice of a key with a write that succeeds. -/
def NeverSaves (key : Key) : Store → List Update → Prop
  | _, [] => True
  | s, u :: us => ¬s.Saves u key ∧ (s.update u).NeverSaves key us

/-- The store on a backend that never fails. -/
def reliably (s : Store) : Store := { s with backend := { s.backend with accepts := fun _ => true } }

/-- After a run the text of a key is the one it had at first, if no update committed its slice, and otherwise what the
    last commit left there: the text of the slice as it was then, if the write succeeded. -/
def HoldsLastWrite (s : Store) (us : List Update) (key : Key) : Prop :=
  ((∀ u ∈ us, u.slice.key? ≠ some key) ∧ (s.updateAll us).backend.blobs key = s.backend.blobs key) ∨
  ∃ before u after, us = before ++ u :: after ∧ u.slice.key? = some key ∧ (∀ v ∈ after, v.slice.key? ≠ some key) ∧
    (s.updateAll us).backend.blobs key = ((s.updateAll before).update u).backend.blobs key ∧
    ((s.updateAll before).Saves u key →
      (s.updateAll us).backend.blobs key = some (((s.updateAll before).update u).state.text key))

/-- After a run the text of a key is the one it had at first, if no update saved its slice, and otherwise the text
    of the slice right after the last update that saved it. -/
def HoldsLastSave (s : Store) (us : List Update) (key : Key) : Prop :=
  (s.NeverSaves key us ∧ (s.updateAll us).backend.blobs key = s.backend.blobs key) ∨
  ∃ before u after, us = before ++ u :: after ∧ (s.updateAll before).Saves u key ∧
    ((s.updateAll before).update u).NeverSaves key after ∧
    (s.updateAll us).backend.blobs key = some (((s.updateAll before).update u).state.text key)

/-! ### What is seen of an update -/

def replies : Store → List Update → List (Except Fault Unit)
  | _, [] => []
  | s, u :: us => u.reply s.state :: (s.update u).replies us

/-- What a listener that is subscribed now is told of the updates that follow: each commit, with the state then. -/
def told : Store → List Update → List (Slice × State)
  | _, [] => []
  | s, u :: us =>
    let t := s.update u
    (t.commits.take (t.commits.length - s.commits.length)).reverse.map (fun slice => (slice, t.state)) ++ t.told us

/-- Nobody can tell two stores apart by what is done to them. -/
structure SeenAlike (s t : Store) : Prop where
  states : ∀ us, (s.updateAll us).state = (t.updateAll us).state
  replies : ∀ us, s.replies us = t.replies us
  listeners : ∀ before after, (s.updateAll before).told after = (t.updateAll before).told after

/-! ### One update -/

theorem state_update (s : Store) (u : Update) : (s.update u).state = u.apply s.state := rfl

theorem commits_update (s : Store) (u : Update) : (s.update u).commits = u.slice :: s.commits := rfl

theorem backend_update_of_key (h : u.slice.key? = some key) :
    (s.update u).backend = s.backend.save key ((s.update u).state.text key) := by
  rw [update, commit, Backend.onCommit, State.blob?_eq, h]
  rfl

theorem backend_update_of_no_key (h : u.slice.key? = none) : (s.update u).backend = s.backend := by
  rw [update, commit, Backend.onCommit, State.blob?_eq, h]
  rfl

/-- What a backend keeps over its writes is kept by updates. -/
theorem backend_update_of_save {P : Backend → Prop} (hsave : ∀ b key blob, P b → P (b.save key blob))
    (h : P s.backend) (u : Update) : P (s.update u).backend := by
  cases hkey : u.slice.key? with
  | none =>
    rw [backend_update_of_no_key hkey]
    exact h
  | some key =>
    rw [backend_update_of_key hkey]
    exact hsave _ key _ h

theorem accepts_update (s : Store) (u : Update) : (s.update u).backend.accepts = s.backend.accepts :=
  backend_update_of_save (P := fun b => b.accepts = s.backend.accepts) (fun _ _ _ h => h) rfl u

/-- While the writes do what they should, an update changes the text of the key of its slice only, to that of the slice. -/
theorem blobs_update_of_writable (h : s.writable = true) (u : Update) (key : Key) :
    (s.update u).backend.blobs key =
      if u.slice.key? = some key then some ((s.update u).state.text key) else s.backend.blobs key := by
  cases hkey : u.slice.key? with
  | none => rw [backend_update_of_no_key hkey, if_neg nofun]
  | some written =>
    rw [backend_update_of_key hkey, Backend.blobs_save_of_accepts h]
    by_cases he : key = written
    · rw [if_pos he, if_pos (he ▸ rfl), he]
    · rw [if_neg he, if_neg fun hsome => he (Option.some.inj hsome).symm]

theorem blobs_update_of_sparing (hspare : s.backend.Sparing) (h : s.writable = false) (u : Update) :
    (s.update u).backend.blobs = s.backend.blobs := by
  cases hkey : u.slice.key? with
  | none => rw [backend_update_of_no_key hkey]
  | some written =>
    rw [backend_update_of_key hkey, Backend.blobs_save_of_not_accepts h]
    exact hspare _ h _ _ _

theorem blobs_update_of_not_key (hconf : s.backend.Confined) (h : u.slice.key? ≠ some key) :
    (s.update u).backend.blobs key = s.backend.blobs key := by
  cases hkey : u.slice.key? with
  | none => rw [backend_update_of_no_key hkey]
  | some written =>
    rw [backend_update_of_key hkey]
    exact hconf.blobs_save_of_ne fun he => h (he ▸ hkey)

theorem saves_iff (hconf : s.backend.Confined) : s.Saves u key ↔ u.slice.key? = some key ∧ s.writable = true :=
  and_congr_right fun _ => hconf.write_eq_ok_iff

/-- An update that saves the slice of a key leaves its text there. -/
theorem blobs_update_of_saves (hconf : s.backend.Confined) (h : s.Saves u key) :
    (s.update u).backend.blobs key = some ((s.update u).state.text key) := by
  obtain ⟨hkey, hwritable⟩ := (saves_iff hconf).mp h
  rw [blobs_update_of_writable hwritable, if_pos hkey]

/-- Where failures spare the texts, an update that does not save the slice of a key leaves the text of the key. -/
theorem blobs_update_of_not_saves (hconf : s.backend.Confined) (hspare : s.backend.Sparing) (h : ¬s.Saves u key) :
    (s.update u).backend.blobs key = s.backend.blobs key := by
  by_cases hkey : u.slice.key? = some key
  · have hwritable : s.writable = false := by
      rw [saves_iff hconf, not_and, Bool.not_eq_true] at h
      exact h hkey
    exact congrFun (blobs_update_of_sparing hspare hwritable u) key
  · exact blobs_update_of_not_key hconf hkey

/-! ### Runs -/

theorem updateAll_append (s : Store) (us us' : List Update) : s.updateAll (us ++ us') = (s.updateAll us).updateAll us' :=
  List.foldl_append

theorem backend_updateAll_of_save {P : Backend → Prop} (hsave : ∀ b key blob, P b → P (b.save key blob))
    (h : P s.backend) (us : List Update) : P (s.updateAll us).backend := by
  induction us generalizing s with
  | nil => exact h
  | cons u us ih => exact ih (backend_update_of_save hsave h u)

theorem accepts_updateAll (s : Store) (us : List Update) : (s.updateAll us).backend.accepts = s.backend.accepts :=
  backend_updateAll_of_save (P := fun b => b.accepts = s.backend.accepts) (fun _ _ _ h => h) rfl us

theorem blobs_updateAll_of_not_key (haccepts : ∀ n, s.backend.accepts n = true) {us : List Update}
    (h : ∀ u ∈ us, u.slice.key? ≠ some key) : (s.updateAll us).backend.blobs key = s.backend.blobs key := by
  induction us generalizing s with
  | nil => rfl
  | cons u us ih =>
    rw [List.forall_mem_cons] at h
    have hstill : ∀ n, (s.update u).backend.accepts n = true := fun n => accepts_update s u ▸ haccepts n
    refine (ih hstill h.2).trans ?_
    rw [blobs_update_of_writable (haccepts _), if_neg h.1]

theorem confined_updateAll (h : s.backend.Confined) (us : List Update) : (s.updateAll us).backend.Confined :=
  backend_updateAll_of_save (fun _ _ _ h => ⟨h.fails, h.others⟩) h us

theorem sparing_updateAll (h : s.backend.Sparing) (us : List Update) : (s.updateAll us).backend.Sparing :=
  backend_updateAll_of_save (P := Backend.Sparing) (fun _ _ _ h => h) h us

theorem neverSaves_append {us us' : List Update} :
    s.NeverSaves key (us ++ us') ↔ s.NeverSaves key us ∧ (s.updateAll us).NeverSaves key us' := by
  induction us generalizing s with
  | nil => exact ⟨fun h => ⟨trivial, h⟩, fun h => h.2⟩
  | cons u us ih =>
    have hrest : s.updateAll (u :: us) = (s.update u).updateAll us := rfl
    rw [List.cons_append, NeverSaves, NeverSaves, ih, hrest, and_assoc]

theorem state_updateAll (s : Store) (us : List Update) : (s.updateAll us).state = us.foldl Update.apply s.state := by
  induction us generalizing s with
  | nil => rfl
  | cons u us ih => exact ih (s.update u)

theorem replies_congr (h : s.state = t.state) (us : List Update) : s.replies us = t.replies us := by
  induction us generalizing s t with
  | nil => rfl
  | cons u us ih =>
    have hnext : (s.update u).state = (t.update u).state := by rw [state_update, state_update, h]
    rw [replies, replies, h, ih hnext]

theorem told_congr (h : s.state = t.state) (us : List Update) : s.told us = t.told us := by
  induction us generalizing s t with
  | nil => rfl
  | cons u us ih =>
    have hnext : (s.update u).state = (t.update u).state := by rw [state_update, state_update, h]
    -- Each update adds one commit to those that there were, however many.
    have hnew (s : Store) : (s.update u).commits.take ((s.update u).commits.length - s.commits.length) = [u.slice] := by
      simp [commits_update]
    rw [told, told, hnew, hnew, hnext, ih hnext]

theorem seenAlike_of_state (h : s.state = t.state) : s.SeenAlike t where
  states us := by rw [state_updateAll, state_updateAll, h]
  replies := replies_congr h
  listeners before after := by
    refine told_congr ?_ after
    rw [state_updateAll, state_updateAll, h]

theorem holdsLastWrite (hconf : s.backend.Confined) (us : List Update) (key : Key) : s.HoldsLastWrite us key := by
  induction us using List.reverseRecOn with
  | nil => exact Or.inl ⟨nofun, rfl⟩
  | append_singleton us v ih =>
    have hlast : s.updateAll (us ++ [v]) = (s.updateAll us).update v := updateAll_append s us [v]
    have hnow := confined_updateAll hconf us
    by_cases hv : v.slice.key? = some key
    · refine Or.inr ⟨us, v, [], rfl, hv, nofun, by rw [hlast], fun hsaves => ?_⟩
      rw [hlast, blobs_update_of_saves hnow hsaves]
    · have hkept := blobs_update_of_not_key hnow hv
      rcases ih with ⟨hnone, hfirst⟩ | ⟨before, u, after, rfl, hu, hafter, hleft, hsaved⟩
      · have hstill : ∀ u ∈ us ++ [v], u.slice.key? ≠ some key :=
          List.forall_mem_append.mpr ⟨hnone, List.forall_mem_singleton.mpr hv⟩
        exact Or.inl ⟨hstill, by rw [hlast, hkept, hfirst]⟩
      · have hstill : ∀ u ∈ after ++ [v], u.slice.key? ≠ some key :=
          List.forall_mem_append.mpr ⟨hafter, List.forall_mem_singleton.mpr hv⟩
        refine Or.inr ⟨before, u, after ++ [v], by simp, hu, hstill, by rw [hlast, hkept, hleft], fun hsaves => ?_⟩
        rw [hlast, hkept, hsaved hsaves]

theorem holdsLastSave (hconf : s.backend.Confined) (hspare : s.backend.Sparing) (us : List Update) (key : Key) :
    s.HoldsLastSave us key := by
  induction us using List.reverseRecOn with
  | nil => exact Or.inl ⟨trivial, rfl⟩
  | append_singleton us v ih =>
    have hlast : s.updateAll (us ++ [v]) = (s.updateAll us).update v := updateAll_append s us [v]
    have hnow := confined_updateAll hconf us
    by_cases hv : (s.updateAll us).Saves v key
    · refine Or.inr ⟨us, v, [], rfl, hv, trivial, ?_⟩
      rw [hlast, blobs_update_of_saves hnow hv]
    · have hkept := blobs_update_of_not_saves hnow (sparing_updateAll hspare us) hv
      rcases ih with ⟨hnever, hfirst⟩ | ⟨before, u, after, rfl, hu, hafter, hsaved⟩
      · refine Or.inl ⟨neverSaves_append.mpr ⟨hnever, hv, trivial⟩, ?_⟩
        rw [hlast, hkept, hfirst]
      · have hsplit : s.updateAll (before ++ u :: after) = ((s.updateAll before).update u).updateAll after :=
          updateAll_append s before (u :: after)
        refine Or.inr ⟨before, u, after ++ [v], by simp, hu, neverSaves_append.mpr ⟨hafter, ?_, trivial⟩, ?_⟩
        · rw [← hsplit]
          exact hv
        · rw [hlast, hkept, hsaved]

/-- However its writes go wrong, a store looks to everyone like one whose writes all succeed. If each write has to do with
    the text of its key only, this text is what the last commit of its slice left there: the text of the slice as it
    was then if the write succeeded, and what the failed write made of the text otherwise. If failed writes leave the
    texts as they are, it is that of the last commit whose write succeeded. -/
theorem failures_unseen (s : Store) :
    s.SeenAlike s.reliably ∧
    (s.backend.Confined →
      (∀ (us : List Update) (key : Key), s.HoldsLastWrite us key) ∧
      (∀ (us : List Update) (u : Update) (key : Key), u.slice.key? ≠ some key →
        ((s.updateAll us).update u).backend.blobs key = (s.updateAll us).backend.blobs key) ∧
      (s.backend.Sparing → ∀ (us : List Update) (key : Key), s.HoldsLastSave us key)) :=
  ⟨seenAlike_of_state rfl, fun hconf => ⟨holdsLastWrite hconf,
    fun us _ _ h => blobs_update_of_not_key (confined_updateAll hconf us) h, fun hspare => holdsLastSave hconf hspare⟩⟩

end Store

/-! ### Writes that do harm -/

/-- A disk that has room for one write: a later one empties the file of its key, and fails. -/
def Backend.full : Backend where
  blobs _ := none
  accepts n := n == 0
  mishap _ key _ texts := (.error (.io "no space left on device"), fun k => if k = key then some "" else texts k)

/-- A directory that is reached by way of another one, which the first write makes. Before, nothing can be read there;
    with it, the drafts that were left there come to light. -/
def Backend.hidden (left : Drafts) : Backend where
  blobs _ := none
  accepts n := n != 0
  mishap _ key blob _ :=
    (.ok (), fun k => if k = key then some blob else if k = .drafts then some left.toJson.write else none)

namespace Store

theorem confined_full : Backend.full.Confined where
  fails _ _ _ _ _ := nofun
  others _ _ _ _ _ _ hk := if_neg hk

/-- The second write empties the text of its key. -/
theorem blobs_full {u v : Update} {written key : Key} (hu : u.slice.key? = some written) (hv : v.slice.key? = some key) :
    ((load .full).updateAll [u, v]).backend.blobs key = some "" := by
  have hwritable : ((load .full).update u).backend.accepts ((load .full).update u).backend.writes = false := by
    rw [backend_update_of_key hu]
    rfl
  show (((load .full).update u).update v).backend.blobs key = some ""
  rw [backend_update_of_key hv, Backend.blobs_save_of_not_accepts hwritable, backend_update_of_key hu]
  exact if_pos rfl

/-- The first write brings up the drafts that were left. -/
theorem blobs_hidden {left : Drafts} {u : Update} {written : Key} (hu : u.slice.key? = some written)
    (hne : written ≠ .drafts) : ((load (.hidden left)).update u).backend.blobs .drafts = some left.toJson.write := by
  rw [backend_update_of_key hu, Backend.blobs_save_of_not_accepts rfl]
  exact (if_neg hne.symm).trans (if_pos rfl)

/-- Without a save the text of a key is as it was, and with one it is that of a slice. -/
theorem HoldsLastSave.blobs_cases {s : Store} {us : List Update} {key : Key} (h : s.HoldsLastSave us key) :
    (s.updateAll us).backend.blobs key = s.backend.blobs key ∨
      (∃ u ∈ us, u.slice.key? = some key) ∧ ∃ t : State, (s.updateAll us).backend.blobs key = some (t.text key) := by
  rcases h with ⟨-, hfirst⟩ | ⟨before, u, after, rfl, hu, -, hlast⟩
  · exact Or.inl hfirst
  · exact Or.inr ⟨⟨u, by simp, hu.1⟩, _, hlast⟩

/-- After a write that failed and cut the text, a key does not hold what was saved last. And a write that succeeds may
    bring up a text of another key that nobody committed, which the next start finds. -/
theorem lastSave_lost :
    let login : Update := .session (some ⟨"kim", "mock-1"⟩)
    let found := (load (.hidden { orderId := "o-1" })).update login
    ¬(load .full).HoldsLastSave [login, .session none] .session ∧
      ¬(load (.hidden { orderId := "o-1" })).HoldsLastSave [login] .drafts ∧
      (load (.hidden { orderId := "o-1" })).state.drafts = {} ∧ found.state.drafts = {} ∧
      (load found.backend).state.drafts = { orderId := "o-1" } := by
  intro login found
  have hfound : found.backend.blobs .drafts = some (Drafts.toJson { orderId := "o-1" }).write := blobs_hidden rfl nofun
  refine ⟨fun h => ?_, fun h => ?_, rfl, rfl, ?_⟩
  · have hcut : ((load .full).updateAll [login, .session none]).backend.blobs .session = some "" := blobs_full rfl rfl
    rcases h.blobs_cases with hfirst | ⟨-, t, hlast⟩
    · cases hcut.symm.trans hfirst
    · exact t.text_ne_empty .session (Option.some.inj (hcut.symm.trans hlast)).symm
  · rcases h.blobs_cases with hfirst | ⟨⟨u, hu, hkey⟩, -⟩
    · cases hfound.symm.trans hfirst
    · rw [List.mem_singleton.mp hu] at hkey
      cases hkey
  · rw [load, State.ofBlobs, hfound, State.loadDrafts_toJson]

/-- On the full disk the last commit of the session is the one that was cut. On a backend that cannot be written the
    text of a key stays as it was. -/
theorem failures_unseen_of_full :
    let us : List Update := [.session (some ⟨"kim", "mock-1"⟩), .session none]
    Backend.full.Confined ∧ (load .full).SeenAlike (load .full).reliably ∧ (load .full).HoldsLastWrite us .session ∧
      ((load .full).updateAll us).backend.blobs .session = some "" ∧
      Backend.unwritable.Confined ∧ Backend.unwritable.Sparing ∧ (load .unwritable).HoldsLastSave us .session := by
  intro us
  have hunwritable : Backend.unwritable.Confined := ⟨fun _ _ _ _ _ => nofun, fun _ _ _ _ _ _ _ => rfl⟩
  have hsparing : Backend.unwritable.Sparing := fun _ _ _ _ _ => rfl
  obtain ⟨hseen, hfull⟩ := failures_unseen (load .full)
  obtain ⟨-, -, hsaves⟩ := (failures_unseen (load .unwritable)).2 hunwritable
  exact ⟨confined_full, hseen, (hfull confined_full).1 us .session, blobs_full rfl rfl, hunwritable, hsparing,
    hsaves hsparing us .session⟩

end Store

end TicketDesk
