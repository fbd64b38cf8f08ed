import TicketDesk.Proofs.Store.Slices
import TicketDesk.Proofs.Store.Writes

/-! # A store and its texts

While every write succeeds, a store that is opened on the texts of a store has its session, drafts and
history again, whatever the texts were when the first one was opened and whatever was done to it since.
Each text decodes to its slice: before the first commit of the slice because the slice was decoded from
it, and afterwards because it is the text of the slice. An update of the drafts is an edit, and edits reach
all drafts from all others. -/

namespace TicketDesk

/-! ### Logs -/

theorem History.length_record_le (h : History) (e : Entry) : (h.record e).entries.length ≤ capacity :=
  List.length_take_le _ _

theorem History.portable_record {h : History} {e : Entry} (hp : ∀ x ∈ h.entries, x.Portable) (he : e.Portable) :
    ∀ x ∈ (h.record e).entries, x.Portable := by
  intro x hx
  rcases List.mem_cons.mp (List.mem_of_mem_take hx) with rfl | hx
  · exact he
  · exact hp x hx

/-! ### The texts of a store -/

namespace Store

/-- Every write succeeds, each text decodes to its slice, and the log can be written and read back. -/
structure Coherent (s : Store) : Prop where
  accepts : ∀ n, s.backend.accepts n = true
  session : State.loadSession (s.backend.blobs .session) = s.state.session
  drafts : State.loadDrafts (s.backend.blobs .drafts) = s.state.drafts
  history : State.loadHistory (s.backend.blobs .history) = s.state.history
  bounded : s.state.history.entries.length ≤ History.capacity
  portable : ∀ e ∈ s.state.history.entries, e.Portable

theorem coherent_load {b : Backend} (hb : ∀ n, b.accepts n = true)
    (hexact : ∀ e ∈ (load b).state.history.entries, ∀ v, e.body = some v → v.isExact = true) : (load b).Coherent where
  accepts := hb
  session := rfl
  drafts := rfl
  history := rfl
  bounded := State.length_loadHistory_le _
  portable := fun e he => State.portable_of_mem_loadHistory he (hexact e he)

section Updates

variable {s : Store} {u : Update} {key : Key} (h : s.Coherent)

include h

theorem Coherent.blobs_update_self (hkey : u.slice.key? = some key) :
    (s.update u).backend.blobs key = some ((s.update u).state.text key) := by
  rw [blobs_update_of_writable (h.accepts _), if_pos hkey]

theorem Coherent.blobs_update_of_ne (u : Update) (key : Key) (hkey : u.slice.key? ≠ some key) :
    (s.update u).backend.blobs key = s.backend.blobs key := by
  rw [blobs_update_of_writable (h.accepts _), if_neg hkey]

theorem Coherent.accepts_update (u : Update) (n : Nat) : (s.update u).backend.accepts n = true :=
  Store.accepts_update s u ▸ h.accepts n

/-- An update of the log alone writes it, and it can be read back. -/
theorem Coherent.update_log (hslice : u.slice = .history) (hsession : (s.update u).state.session = s.state.session)
    (hdrafts : (s.update u).state.drafts = s.state.drafts)
    (hlen : (s.update u).state.history.entries.length ≤ History.capacity)
    (hp : ∀ e ∈ (s.update u).state.history.entries, e.Portable) : (s.update u).Coherent where
  accepts := h.accepts_update u
  session := by
    rw [h.blobs_update_of_ne u .session (by rw [hslice]; nofun), hsession]
    exact h.session
  drafts := by
    rw [h.blobs_update_of_ne u .drafts (by rw [hslice]; nofun), hdrafts]
    exact h.drafts
  history := by
    rw [h.blobs_update_self (by rw [hslice]; rfl)]
    exact State.loadHistory_toJson hp hlen
  bounded := hlen
  portable := hp

/-- An update keeps the texts of a store coherent: it writes the text of the slice that it changes. -/
theorem Coherent.update (hu : ∀ e, u = .record e → e.Portable) : (s.update u).Coherent := by
  cases u with
  | session x =>
    exact { h with
      accepts := h.accepts_update (.session x)
      session := by
        rw [h.blobs_update_self rfl]
        cases x with
        | none => exact State.loadSession_null
        | some x => exact State.loadSession_toJson x
      drafts := by rw [h.blobs_update_of_ne (.session x) .drafts nofun]; exact h.drafts
      history := by rw [h.blobs_update_of_ne (.session x) .history nofun]; exact h.history }
  | drafts edit =>
    exact { h with
      accepts := h.accepts_update (.drafts edit)
      session := by rw [h.blobs_update_of_ne (.drafts edit) .session nofun]; exact h.session
      drafts := by rw [h.blobs_update_self rfl]; exact State.loadDrafts_toJson _
      history := by rw [h.blobs_update_of_ne (.drafts edit) .history nofun]; exact h.history }
  | record e =>
    exact h.update_log rfl rfl rfl (s.state.history.length_record_le e) (History.portable_record h.portable (hu e rfl))
  | clearHistory => exact h.update_log rfl rfl rfl (Nat.zero_le _) fun _ he => by cases he
  | result r => exact { h with }
  | health service board => exact { h with }

end Updates

theorem Coherent.updateAll {s : Store} (h : s.Coherent) {us : List Update}
    (hus : ∀ e, .record e ∈ us → e.Portable) : (s.updateAll us).Coherent := by
  induction us generalizing s with
  | nil => exact h
  | cons u us ih =>
    exact ih (h.update fun e he => hus e (he ▸ List.mem_cons_self)) fun e he => hus e (List.mem_cons_of_mem _ he)

theorem Coherent.state_reload {s : Store} (h : s.Coherent) :
    (load s.backend).state = { s.state with result := .initial, health := .initial } := by
  rw [load, State.ofBlobs, h.session, h.drafts, h.history]

/-- Whatever the texts a store was opened on and whatever was done to it since, opening a second store
    gives its session, drafts and history, with the default result and nothing known of the services.
    Bodies that are recorded nest at most 125 containers, and no body holds a binary64 number; the members
    of their objects are in order, as in every value that is read or made of members. -/
theorem reload_updateAll {b : Backend} (hb : ∀ n, b.accepts n = true)
    (hexact : ∀ e ∈ (load b).state.history.entries, ∀ v, e.body = some v → v.isExact = true) {us : List Update}
    (hus : ∀ e, .record e ∈ us → ∀ v, e.body = some v → v.Portable 125) :
    (load ((load b).updateAll us).backend).state =
      { ((load b).updateAll us).state with result := .initial, health := .initial } :=
  ((coherent_load hb hexact).updateAll hus).state_reload

/-- A session, drafts that do not decode and a log of one entry; then a second entry with a nested body,
    and an edit of which the second text is refused. -/
theorem reload_updateAll_after_refusal :
    let first : Entry := ⟨"1-1", "09:00:00", "Health", .query, .get, "/healthz", none, true, 200, 3⟩
    let second : Entry :=
      ⟨"2-7", "09:00:01", "Create", .order, .post, "/orders", some (.object [("lines", .array [.null])]), false, 422, 8⟩
    let b : Backend := .reliable fun
      | .session => some (Session.toJson ⟨"kim", "mock-1"⟩).write
      | .drafts => some "[oops"
      | .history => some (History.toJson ⟨[first]⟩).write
    let us : List Update := [.record second, .drafts (.set [(.orderId, "o-1"), (.qty, "x"), (.holdId, "h")])]
    let s := (load ((load b).updateAll us).backend).state
    s.session = some ⟨"kim", "mock-1"⟩ ∧ s.drafts = { orderId := "o-1" } ∧ s.history.entries = [second, first] := by
  intro first second b us s
  have hblob : b.blobs .session = some (Session.toJson ⟨"kim", "mock-1"⟩).write := by simp [b, Backend.reliable]
  have hloaded : (load b).state.session = some ⟨"kim", "mock-1"⟩ := by
    simp only [load, State.ofBlobs, hblob, State.loadSession_toJson]
  have hlog : (load b).state.history = ⟨[first]⟩ :=
    State.loadHistory_toJson (fun e he => by simp [List.mem_singleton.mp he, first, Entry.Portable]) (by decide)
  have hexact : ∀ e ∈ (load b).state.history.entries, ∀ v, e.body = some v → v.isExact = true := by
    intro e he v hv
    rw [hlog] at he
    simp [List.mem_singleton.mp he, first] at hv
  have hportable : ∀ e, .record e ∈ us → ∀ v, e.body = some v → v.Portable 125 := by
    intro e he v hv
    obtain rfl : e = second := by simpa [us] using he
    obtain rfl := Option.some.inj hv
    exact ⟨rfl, rfl, by decide⟩
  have hreload := reload_updateAll (fun _ => rfl) hexact hportable
  have hupdated (t : Store) : (t.updateAll us).state.session = t.state.session ∧
      (t.updateAll us).state.drafts = (t.state.drafts.setAll [(.orderId, "o-1"), (.qty, "x"), (.holdId, "h")]).1 ∧
      (t.updateAll us).state.history = t.state.history.record second :=
    ⟨rfl, rfl, rfl⟩
  obtain ⟨hsession, hdrafts, hhistory⟩ := hupdated (load b)
  refine ⟨?_, ?_, ?_⟩
  · simp only [s, hreload, hsession, hloaded]
  · simp only [s, hreload, hdrafts]
    rfl
  · simp only [s, hreload, hhistory, hlog]
    rfl

end Store

end TicketDesk
