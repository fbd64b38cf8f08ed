import Mathlib.Data.List.Forall2
import TicketDesk.Proofs.Execution
import TicketDesk.Proofs.Store.Coherence
import TicketDesk.Proofs.Store.Writes
import TicketDesk.Proofs.Work.Course
import TicketDesk.Proofs.Work.Effects

/-! # Replays

An entry of the log goes back to a request that was executed, over any number of replays. Beside the log and beside
its text in the backend runs a list of these origins, which is added to, cut, cleared and opened as they are; entries
that a failed write brings into the text have none. What a replay of an entry sends is what its origin sent, whatever
was recorded, cleared, edited, written and opened again since. -/

namespace TicketDesk

/-- The request that an entry goes back to, and over how many replays: each is a replay of the entry that the one
    before it left. -/
structure Origin where
  request : Request
  replays : Nat

/-- What an entry has of its origin. -/
structure Origin.Verbatim (c : Config) (o : Origin) (e : Entry) : Prop where
  call : e.call = o.request.call
  label : e.label = o.request.label ++ String.join (List.replicate o.replays " (replay)")
  /-- Whatever the store and whoever answers, a replay of the entry sends what the request itself sends. -/
  sent : ∃ base, c.baseUrl? o.request.call.service = some base ∧
    ∀ {σ : Type} (w : World σ) (s : Store) (x : σ),
      (o.request.execute c).sent w s x = [o.request.wire base] ∧ (e.replay.execute c).sent w s x = [o.request.wire base]

/-- A store in its world, with the origins of the entries of its log, and of those in the text of the log. Entries that
    were there at first or come from elsewhere have none. -/
structure Trail (σ : Type) where
  store : Store
  world : σ
  origins : List (Option Origin)
  written : List (Option Origin)

namespace Trail

/-- Something that is done to a store. -/
inductive Event where
  | update (u : Update)
  | execute (r : Request)
  /-- Replays the entry at a position of the log. -/
  | replay (position : Nat)
  /-- Opens the store again from its backend. -/
  | reopen

/-- The body that an event records, if any. -/
def Event.body? : Event → Option Json
  | .update (.record e) => e.body
  | .execute r => r.call.body
  | _ => none

variable {σ : Type}

def opened (b : Backend) (x : σ) : Trail σ :=
  let origins := (Store.load b).state.history.entries.map fun _ => none
  ⟨.load b, x, origins, origins⟩

/-- The origin of the entry at a position. -/
def origin? (t : Trail σ) (position : Nat) : Option Origin := t.origins[position]?.join

/-- Goes on with a store whose log has these origins. If its text is that of the log it has them too, and what it had if
    it is as it was. Otherwise a write has gone wrong, and what it left has none. -/
def goOn (t : Trail σ) (s : Store) (x : σ) (origins : List (Option Origin)) : Trail σ where
  store := s
  world := x
  origins := origins
  written :=
    if s.backend.blobs .history = some (s.state.text .history) then origins
    else if s.backend.blobs .history = t.store.backend.blobs .history then t.written
    else (State.loadHistory (s.backend.blobs .history)).entries.map fun _ => none

/-- The origins of a log to which an entry with this one is added. -/
def pushed (t : Trail σ) (o : Option Origin) : List (Option Origin) := (o :: t.origins).take History.capacity

/-- Makes a request; the entry that it leaves, if it is answered, has this origin. -/
def perform (c : Config) (w : World σ) (t : Trail σ) (r : Request) (o : Option Origin) : Trail σ :=
  let ended := (r.execute c).run w t.store t.world
  t.goOn ended.2.1 ended.2.2 (if CommandLine.wasAnswered ended.1 then t.pushed o else t.origins)

/-- The origins of the log after an update. -/
def afterUpdate (t : Trail σ) : Update → List (Option Origin)
  | .record _ => t.pushed none
  | .clearHistory => []
  | _ => t.origins

def after (c : Config) (w : World σ) (t : Trail σ) : Event → Trail σ
  | .update u => t.goOn (t.store.update u) t.world (t.afterUpdate u)
  | .execute r => t.perform c w r (some ⟨r, 0⟩)
  | .replay position =>
    match t.store.state.history.entries[position]? with
    | some e => t.perform c w e.replay ((t.origin? position).map fun o => { o with replays := o.replays + 1 })
    | none => t
  | .reopen => { t with store := .load t.store.backend, origins := t.written }

def run (c : Config) (w : World σ) (t : Trail σ) (evs : List Event) : Trail σ := evs.foldl (after c w) t

/-- What is known of the entries of a log, wherever they come from. -/
structure Followed (c : Config) (w : World σ) (t : Trail σ) : Prop where
  aligned : t.origins.length = t.store.state.history.entries.length
  verbatim : ∀ position o, t.origin? position = some o →
    ∃ e, t.store.state.history.entries[position]? = some e ∧ o.Verbatim c e
  /-- Until the log is cleared, an entry has its origin, and it goes when a hundred others are newer. -/
  kept : ∀ ev, ev ≠ .update .clearHistory → ev ≠ .reopen →
    (t.after c w ev).origins = t.origins ∨ ∃ newest, (t.after c w ev).origins = (newest :: t.origins).take 100
  /-- A request that is answered is the origin of the newest entry. -/
  executed : ∀ (r : Request) (base : String) (a : Answer), c.baseUrl? r.call.service = some base →
    (w.send (r.wire base) t.world).1 = .answer a → (t.after c w (.execute r)).origin? 0 = some ⟨r, 0⟩
  /-- A replay whose request, the one of the origin, is answered leaves an entry that is one replay further. -/
  replayed : ∀ position o base a, t.origin? position = some o → c.baseUrl? o.request.call.service = some base →
    (w.send (o.request.wire base) t.world).1 = .answer a →
    (t.after c w (.replay position)).origin? 0 = some ⟨o.request, o.replays + 1⟩
  drafts : ∀ position, (t.after c w (.replay position)).store.state.drafts = t.store.state.drafts

end Trail

/-! ### Texts without binary64 numbers -/

/-- No body in the log that a text holds has a binary64 number. -/
def State.ExactLog (blob : Option String) : Prop :=
  ∀ e ∈ (State.loadHistory blob).entries, ∀ v, e.body = some v → v.isExact = true

/-- A write that goes wrong brings no binary64 number into the text of the log. -/
def Backend.KeepsExact (b : Backend) : Prop :=
  ∀ n, b.accepts n = false → ∀ key blob texts,
    State.ExactLog (texts .history) → State.ExactLog ((b.mishap n key blob texts).2 .history)

theorem Backend.Sparing.keepsExact {b : Backend} (h : b.Sparing) : b.KeepsExact := by
  intro n hn key blob texts htexts
  rw [h n hn]
  exact htexts

namespace Store

/-- There is no binary64 number in the text of the log, and none comes of a write that goes wrong. -/
structure Exact (s : Store) : Prop where
  text : State.ExactLog (s.backend.blobs .history)
  keeps : s.backend.KeepsExact

variable {s : Store} {u : Update}

theorem Exact.update (h : s.Exact)
    (hlog : u.slice = .history → (∀ e ∈ (s.update u).state.history.entries, e.Portable) ∧
      (s.update u).state.history.entries.length ≤ History.capacity) : (s.update u).Exact where
  text := by
    cases hkey : u.slice.key? with
    | none =>
      rw [backend_update_of_no_key hkey]
      exact h.text
    | some key =>
      cases hwritable : s.writable with
      | true =>
        rw [blobs_update_of_writable hwritable]
        split
        case isTrue hhistory =>
          have hslice : u.slice = .history := by
            cases hu : u.slice <;> simp [hu, Slice.key?] at hhistory ⊢
          obtain ⟨hportable, hlen⟩ := hlog hslice
          intro e he v hv
          rw [State.text, State.loadHistory_toJson hportable hlen] at he
          exact (hportable e he v hv).exact
        case isFalse => exact h.text
      | false =>
        rw [backend_update_of_key hkey, Backend.blobs_save_of_not_accepts hwritable]
        exact h.keeps _ hwritable _ _ _ h.text
  keeps := backend_update_of_save (P := Backend.KeepsExact) (fun _ _ _ h => h) h.keeps u

theorem Exact.updateAll_of_not_history (h : s.Exact) {us : List Update} (hus : ∀ u ∈ us, u.slice ≠ .history) :
    (s.updateAll us).Exact := by
  induction us generalizing s with
  | nil => exact h
  | cons u us ih =>
    rw [List.forall_mem_cons] at hus
    exact ih (h.update fun hu => absurd hu hus.1) hus.2

end Store

/-! ### Entries and their origins -/

section Origins

variable {σ : Type} {c : Config} {o : Origin} {e : Entry} {r : Request}

theorem Request.wire_congr {r' : Request} (h : r.call = r'.call) (base : String) : r.wire base = r'.wire base := by
  rw [wire, wire, h]

/-- The entry that is left by the call of an origin, under the label that its replays give it. -/
theorem Origin.verbatim_record {base : String} (hcall : r.call = o.request.call)
    (hlabel : r.label = o.request.label ++ String.join (List.replicate o.replays Entry.replaySuffix))
    (hbase : c.baseUrl? r.call.service = some base) (a : Answer) (m : Moment) :
    o.Verbatim c (.record r.label r.call a m) where
  call := hcall
  label := hlabel
  sent := by
    refine ⟨base, hcall ▸ hbase, fun w s x => ⟨Request.sent_execute (hcall ▸ hbase), ?_⟩⟩
    have hreplay : (Entry.record r.label r.call a m).replay.call = o.request.call := hcall
    rw [Request.sent_execute (hreplay ▸ hcall ▸ hbase), Request.wire_congr hreplay]

/-- The entry that a replay leaves has the same origin, one replay further. -/
theorem Origin.Verbatim.replay {base : String} (h : o.Verbatim c e) (hbase : c.baseUrl? e.replay.call.service = some base)
    (a : Answer) (m : Moment) :
    Verbatim c { o with replays := o.replays + 1 } (.record e.replay.label e.replay.call a m) := by
  refine verbatim_record h.call ?_ hbase a m
  show e.label ++ Entry.replaySuffix = _
  rw [h.label, List.replicate_succ']
  simp [Entry.replaySuffix, String.append_assoc]

/-- Each entry of a log is what its origin, if it has one, makes of it. A log that has to be read back can be. -/
structure History.GoesBack (c : Config) (legible : Prop) (h : History) (origins : List (Option Origin)) : Prop where
  verbatim : List.Forall₂ (fun e o => ∀ origin, o = some origin → origin.Verbatim c e) h.entries origins
  bounded : h.entries.length ≤ capacity
  portable : legible → ∀ e ∈ h.entries, e.Portable

namespace History.GoesBack

variable {legible : Prop} {h : History} {origins : List (Option Origin)}

theorem empty : GoesBack c legible .empty [] where
  verbatim := .nil
  bounded := Nat.zero_le _
  portable := fun _ e he => by cases he

theorem of_no_origins (hlen : h.entries.length ≤ capacity) (hportable : legible → ∀ e ∈ h.entries, e.Portable) :
    GoesBack c legible h (h.entries.map fun _ => none) where
  verbatim := by
    rw [List.forall₂_map_right_iff, List.forall₂_same]
    intro e _ origin hnone
    cases hnone
  bounded := hlen
  portable := hportable

theorem record {new : Option Origin} (hgoes : GoesBack c legible h origins)
    (hnew : ∀ origin, new = some origin → origin.Verbatim c e) (hportable : legible → e.Portable) :
    GoesBack c legible (h.record e) ((new :: origins).take capacity) where
  verbatim := List.forall₂_take capacity (.cons hnew hgoes.verbatim)
  bounded := h.length_record_le e
  portable hlegible := portable_record (hgoes.portable hlegible) (hportable hlegible)

theorem entry (hgoes : GoesBack c legible h origins) {position : Nat} (horigin : origins[position]? = some (some o)) :
    ∃ e, h.entries[position]? = some e ∧ o.Verbatim c e := by
  obtain ⟨hlt, hget⟩ := List.getElem?_eq_some_iff.mp horigin
  have hin : position < h.entries.length := hgoes.verbatim.length_eq ▸ hlt
  exact ⟨h.entries[position], List.getElem?_eq_getElem hin, hgoes.verbatim.get hin hlt o hget⟩

end History.GoesBack

end Origins

namespace Trail

variable {σ : Type} {c : Config} {w : World σ} {t : Trail σ} {legible : Prop}

/-! ### What a trail keeps -/

/-- The origins are those of the log, and, where the text of the log matters, those of what it holds. -/
structure Faithful (c : Config) (legible : Prop) (t : Trail σ) : Prop where
  log : History.GoesBack c legible t.store.state.history t.origins
  text : legible → History.GoesBack c legible (State.loadHistory (t.store.backend.blobs .history)) t.written
  exact : legible → t.store.Exact

/-- Whether the text of the log is that of the log, or as it was, or came out of a failed write, it has its origins. -/
theorem Faithful.goOn (h : Faithful c legible t) {origins : List (Option Origin)} {s : Store} (x : σ)
    (hlog : History.GoesBack c legible s.state.history origins) (hexact : legible → s.Exact) :
    Faithful c legible (t.goOn s x origins) where
  log := hlog
  text hlegible := by
    show History.GoesBack c legible (State.loadHistory (s.backend.blobs .history)) (t.goOn s x origins).written
    rw [Trail.goOn]
    dsimp only
    split
    case isTrue htext =>
      rw [htext, State.text, State.loadHistory_toJson (hlog.portable hlegible) hlog.bounded]
      exact hlog
    case isFalse =>
      split
      case isTrue hsame => exact hsame ▸ h.text hlegible
      case isFalse =>
        exact .of_no_origins (State.length_loadHistory_le _) fun _ e he =>
          State.portable_of_mem_loadHistory he ((hexact hlegible).text e he)
  exact := hexact

theorem Faithful.update (h : Faithful c legible t) {u : Update} (hu : legible → ∀ e, u = .record e → e.Portable) :
    Faithful c legible (t.after c w (.update u)) := by
  have hlog : History.GoesBack c legible (t.store.update u).state.history (t.afterUpdate u) := by
    cases u with
    | record e => exact h.log.record (fun _ hnone => by cases hnone) fun hlegible => hu hlegible e rfl
    | clearHistory => exact .empty
    | _ => exact h.log
  exact h.goOn t.world hlog fun hlegible =>
    (h.exact hlegible).update fun _ => ⟨hlog.portable hlegible, hlog.bounded⟩

/-- A request whose answer is recorded under its origin keeps a trail faithful. -/
theorem Faithful.perform (h : Faithful c legible t) {r : Request} {o : Option Origin}
    (hrecord : ∀ base a m origin, c.baseUrl? r.call.service = some base → o = some origin →
      origin.Verbatim c (.record r.label r.call a m))
    (hbody : legible → ∀ v, r.call.body = some v → v.Portable 125) : Faithful c legible (t.perform c w r o) := by
  rw [Trail.perform]
  rcases r.store_execute_cases c w t.store t.world with ⟨hno, hstore⟩ | ⟨base, a, m, hbase, hyes, hstore⟩
  · rw [hno, hstore]
    exact h.goOn _ h.log h.exact
  · rw [hyes, hstore]
    have hlog := h.log.record (fun origin ho => hrecord base a m origin hbase ho) hbody
    refine h.goOn _ ?_ fun hlegible => ?_
    · rw [Request.history_captures]
      exact hlog
    · -- The result has no text, the log has one that can be read, and what is captured goes to the drafts.
      have hresult := (h.exact hlegible).update (u := .result (.ofAnswer r.label a)) nofun
      have hrecorded := hresult.update (u := .record (.record r.label r.call a m))
        fun _ => ⟨hlog.portable hlegible, hlog.bounded⟩
      refine hrecorded.updateAll_of_not_history fun u hu => ?_
      rw [Request.slice_captures r a hu]
      nofun

theorem Faithful.replay (h : Faithful c legible t) (position : Nat) :
    Faithful c legible (t.after c w (.replay position)) := by
  rw [after]
  split
  case h_2 => exact h
  case h_1 e he =>
    refine h.perform (fun base a m origin hbase ho => ?_) fun hlegible => ?_
    · obtain ⟨o, horigin, rfl⟩ := Option.map_eq_some_iff.mp ho
      obtain ⟨e', he', hverbatim⟩ := h.log.entry (Option.join_eq_some_iff.mp horigin)
      obtain rfl : e = e' := Option.some.inj (he.symm.trans he')
      exact hverbatim.replay hbase a m
    · exact h.log.portable hlegible e (List.mem_of_getElem? he)

theorem Faithful.after (h : Faithful c legible t) {ev : Event} (hreopen : ev = .reopen → legible)
    (hbody : legible → ∀ v, ev.body? = some v → v.Portable 125) : Faithful c legible (t.after c w ev) := by
  cases ev with
  | update u =>
    refine h.update fun hlegible e he => ?_
    subst he
    exact hbody hlegible
  | execute r =>
    refine h.perform (fun base a m origin hbase ho => ?_) hbody
    obtain rfl := Option.some.inj ho
    exact Origin.verbatim_record rfl (by simp) hbase a m
  | replay position => exact h.replay position
  | reopen =>
    have htext := h.text (hreopen rfl)
    exact ⟨htext, fun _ => htext, fun hlegible => ⟨(h.exact hlegible).text, (h.exact hlegible).keeps⟩⟩

theorem Faithful.run (h : Faithful c legible t) {evs : List Event} (hreopen : .reopen ∈ evs → legible)
    (hbody : legible → ∀ ev ∈ evs, ∀ v, ev.body? = some v → v.Portable 125) : Faithful c legible (t.run c w evs) := by
  induction evs generalizing t with
  | nil => exact h
  | cons ev evs ih =>
    have hnext : Faithful c legible (t.after c w ev) :=
      h.after (fun hev => hreopen (hev ▸ List.mem_cons_self)) fun hlegible => hbody hlegible ev List.mem_cons_self
    exact ih hnext (fun hmem => hreopen (List.mem_cons_of_mem _ hmem)) fun hlegible ev hmem =>
      hbody hlegible ev (List.mem_cons_of_mem _ hmem)

theorem faithful_opened {b : Backend} (x : σ)
    (hexact : legible → ∀ e ∈ (Store.load b).state.history.entries, ∀ v, e.body = some v → v.isExact = true)
    (hkeeps : legible → b.KeepsExact) : Faithful c legible (opened b x) :=
  have hloaded : History.GoesBack c legible (Store.load b).state.history (opened b x).origins :=
    .of_no_origins (State.length_loadHistory_le _) fun hlegible e he =>
      State.portable_of_mem_loadHistory he (hexact hlegible e he)
  ⟨hloaded, fun _ => hloaded, fun hlegible => ⟨hexact hlegible, hkeeps hlegible⟩⟩

theorem run_take_succ {evs : List Event} {n : Nat} {ev : Event} (h : evs[n]? = some ev) :
    t.run c w (evs.take (n + 1)) = (t.run c w (evs.take n)).after c w ev := by
  rw [List.take_add_one, h]
  exact List.foldl_append

/-! ### Backends that never fail -/

theorem accepts_after (ev : Event) : (t.after c w ev).store.backend.accepts = t.store.backend.accepts := by
  have hperform (r : Request) (o : Option Origin) :
      (t.perform c w r o).store.backend.accepts = t.store.backend.accepts := by
    rcases r.store_execute_cases c w t.store t.world with ⟨-, hstore⟩ | ⟨base, a, m, -, -, hstore⟩
    · exact congrArg (·.backend.accepts) hstore
    · refine (congrArg (·.backend.accepts) hstore).trans ?_
      rw [Store.accepts_updateAll, Request.record, Store.accepts_updateAll]
  cases ev with
  | update u => exact Store.accepts_update t.store u
  | execute r => exact hperform r _
  | replay position =>
    rw [after]
    split
    · exact hperform _ _
    · rfl
  | reopen => rfl

theorem written_goOn (h : t.written = t.origins) {s : Store} (x : σ) {origins : List (Option Origin)}
    (htext : s.backend.blobs .history = some (s.state.text .history) ∨
      s.backend.blobs .history = t.store.backend.blobs .history ∧ origins = t.origins) :
    (t.goOn s x origins).written = (t.goOn s x origins).origins := by
  rw [goOn]
  dsimp only
  split
  case isTrue => rfl
  case isFalse hother =>
    obtain ⟨hsame, rfl⟩ := htext.resolve_left hother
    rw [if_pos hsame, h]

/-- While writes succeed, the text of the log has all that the log has. -/
theorem written_after (haccepts : ∀ n, t.store.backend.accepts n = true) (h : t.written = t.origins) (ev : Event) :
    (t.after c w ev).written = (t.after c w ev).origins := by
  have hperform (r : Request) (o : Option Origin) : (t.perform c w r o).written = (t.perform c w r o).origins := by
    rw [perform]
    rcases r.store_execute_cases c w t.store t.world with ⟨hno, hstore⟩ | ⟨base, a, m, -, -, hstore⟩
    · rw [hno, hstore]
      exact written_goOn h _ (Or.inr ⟨rfl, rfl⟩)
    · refine written_goOn h _ (Or.inl ?_)
      rw [hstore, Request.blobs_captures r a _ fun n => ?_, Request.blobs_record r a m t.store (haccepts _), State.text,
        Request.history_captures]
      rw [Request.record, Store.accepts_updateAll]
      exact haccepts n
  cases ev with
  | update u =>
    refine written_goOn h t.world ?_
    rw [Store.blobs_update_of_writable (haccepts _)]
    cases u with
    | record e => exact Or.inl rfl
    | clearHistory => exact Or.inl rfl
    | _ => exact Or.inr ⟨rfl, rfl⟩
  | execute r => exact hperform r _
  | replay position =>
    rw [after]
    split
    · exact hperform _ _
    · exact h
  | reopen => rfl

theorem written_run (haccepts : ∀ n, t.store.backend.accepts n = true) (h : t.written = t.origins) (evs : List Event) :
    (t.run c w evs).written = (t.run c w evs).origins := by
  induction evs generalizing t with
  | nil => exact h
  | cons ev evs ih =>
    have hnext : ∀ n, (t.after c w ev).store.backend.accepts n = true := by
      rw [accepts_after]
      exact haccepts
    exact ih hnext (written_after haccepts h ev)

/-! ### What is known of the entries -/

theorem origins_perform (t : Trail σ) (r : Request) (o : Option Origin) :
    (t.perform c w r o).origins = t.origins ∨ (t.perform c w r o).origins = (o :: t.origins).take History.capacity := by
  rw [perform]
  split
  · exact Or.inr rfl
  · exact Or.inl rfl

theorem origins_after (t : Trail σ) {ev : Event} (hclear : ev ≠ .update .clearHistory) (hreopen : ev ≠ .reopen) :
    (t.after c w ev).origins = t.origins ∨ ∃ newest, (t.after c w ev).origins = (newest :: t.origins).take 100 := by
  cases ev with
  | update u =>
    cases u with
    | record e => exact Or.inr ⟨none, rfl⟩
    | clearHistory => exact absurd rfl hclear
    | _ => exact Or.inl rfl
  | execute r => exact (t.origins_perform r _).imp_right fun h => ⟨_, h⟩
  | replay position =>
    rw [after]
    split
    · exact (t.origins_perform _ _).imp_right fun h => ⟨_, h⟩
    · exact Or.inl rfl
  | reopen => exact absurd rfl hreopen

theorem changes_replay (e : Entry) (c : Config) : (e.replay.execute c).Changes fun u => u.slice ≠ .drafts := by
  refine Request.changes_execute (fun u hu => ?_) c e.replay fun hook data hsome => by cases hsome
  cases u with
  | drafts edit => cases hu
  | _ => nofun

theorem drafts_replay (t : Trail σ) (position : Nat) :
    (t.after c w (.replay position)).store.state.drafts = t.store.state.drafts := by
  rw [after]
  split
  · refine (changes_replay _ c).run_eq State.drafts (fun u s hu => ?_) w t.store t.world
    cases u with
    | drafts edit => exact absurd rfl hu
    | _ => rfl
  · rfl

theorem origin?_perform {r : Request} {base : String} {a : Answer} (hbase : c.baseUrl? r.call.service = some base)
    (hanswer : (w.send (r.wire base) t.world).1 = .answer a) (o : Option Origin) : (t.perform c w r o).origin? 0 = o := by
  have hyes := Request.wasAnswered_execute (s := t.store) hbase hanswer
  rw [perform, hyes]
  rfl

theorem origin?_edit (t : Trail σ) (edit : DraftEdit) (position : Nat) :
    (t.after c w (.update (.drafts edit))).origin? position = t.origin? position := rfl

theorem origin?_reopen (h : t.written = t.origins) (position : Nat) :
    (t.after c w .reopen).origin? position = t.origin? position :=
  congrArg (fun origins : List (Option Origin) => origins[position]?.join) h

theorem Faithful.followed (h : Faithful c legible t) : t.Followed c w where
  aligned := h.log.verbatim.length_eq.symm
  verbatim position o horigin := h.log.entry (Option.join_eq_some_iff.mp horigin)
  kept _ := t.origins_after
  executed r base a hbase hanswer := origin?_perform hbase hanswer _
  replayed position o base a horigin hbase hanswer := by
    obtain ⟨e, he, hverbatim⟩ := h.log.entry (Option.join_eq_some_iff.mp horigin)
    have hcall : e.replay.call = o.request.call := hverbatim.call
    rw [← hcall] at hbase
    rw [Request.wire_congr hcall.symm] at hanswer
    rw [Trail.after, he]
    show (t.perform c w e.replay _).origin? 0 = _
    rw [origin?_perform hbase hanswer, horigin]
    rfl
  drafts := t.drafts_replay

/-- Whatever is done to a store, in any order and however often, the entries of its log are what their origins make of
    them: replaying one sends what its request sent, method, URL and body, and its label is that of the request with a
    suffix for each replay. While writes succeed, opening the store again loses none of them. No replay touches the
    drafts. A store is opened again only where bodies nest at most 125 containers and hold no binary64 number; the
    members of their objects are in order, as in every value that is read or made of members. -/
theorem verbatim_run (c : Config) (w : World σ) (x : σ) (b : Backend) (evs : List Event)
    (hexact : .reopen ∈ evs → ∀ e ∈ (Store.load b).state.history.entries, ∀ v, e.body = some v → v.isExact = true)
    (hkeeps : .reopen ∈ evs → b.KeepsExact)
    (hbody : .reopen ∈ evs → ∀ ev ∈ evs, ∀ v, ev.body? = some v → v.Portable 125) :
    let t := (opened b x).run c w evs
    t.Followed c w ∧ ((∀ n, b.accepts n = true) → t.written = t.origins) ∧
    ∀ e : Entry, (e.replay.execute c).Changes fun u => u.slice ≠ .drafts :=
  ⟨((faithful_opened x hexact hkeeps).run id hbody).followed, fun haccepts => written_run haccepts rfl evs,
    fun e => changes_replay e c⟩

/-- An order is created, a draft is edited and the store opened again; then its entry is replayed, and so is, after the
    store was opened once more, the entry that this left. Yet another replay would send the first request again. -/
theorem verbatim_run_of_chain :
    let body : Json := .object [("lines", .array [.null]), ("note", .text "say \"hi\"\n")]
    let r : Request := { label := "Create", call := .post .order "/orders?at=ü" body, hook := some .captureOrderId }
    let w : World Unit := .saying (.answer ⟨201, "", 8⟩) ⟨2, 7, "09:00:01"⟩ 0
    let evs : List Event :=
      [.execute r, .update (.drafts (.set [(.qty, "2")])), .reopen, .replay 0, .reopen, .replay 0]
    let t := (opened (.reliable fun _ => none) ()).run .initial w evs
    ∃ e, t.store.state.history.entries[0]? = some e ∧ e.label = "Create (replay) (replay)" ∧
      (e.replay.execute .initial).sent w t.store () = [r.wire (Config.bareUrl Service.order.localUrl)] := by
  intro body r w evs t
  have hbase : Config.initial.baseUrl? r.call.service = some (Config.bareUrl Service.order.localUrl) := rfl
  have hreliable : (Backend.reliable fun _ => none).Sparing := Backend.sparing_of_accepts fun _ => rfl
  have hbody : ∀ ev ∈ evs, ∀ v, ev.body? = some v → v.Portable 125 := by
    intro ev hev v hv
    simp only [evs, List.mem_cons, List.not_mem_nil, or_false] at hev
    rcases hev with rfl | rfl | rfl | rfl | rfl | rfl
    · obtain rfl := Option.some.inj hv
      exact ⟨rfl, rfl, by decide⟩
    all_goals cases hv
  have hknown : ∃ trail : Nat → Trail Unit, trail 6 = t ∧
      (∀ n ev, evs[n]? = some ev → trail (n + 1) = (trail n).after .initial w ev) ∧
      ∀ n, (trail n).Followed .initial w ∧ (trail n).written = (trail n).origins := by
    refine ⟨fun n => (opened (.reliable fun _ => none) ()).run .initial w (evs.take n), rfl,
      fun n ev => run_take_succ, fun n => ?_⟩
    obtain ⟨hfollowed, hwritten, -⟩ := verbatim_run .initial w () (.reliable fun _ => none) (evs.take n)
      (fun _ e he => by cases he) (fun _ => hreliable.keepsExact) fun _ ev hev => hbody ev (List.mem_of_mem_take hev)
    exact ⟨hfollowed, hwritten fun _ => rfl⟩
  obtain ⟨trail, hend, hstep, hknown⟩ := hknown
  have hcreated : (trail 1).origin? 0 = some ⟨r, 0⟩ := by
    rw [hstep 0 _ rfl]
    exact (hknown 0).1.executed r _ ⟨201, "", 8⟩ hbase rfl
  have hopened : (trail 3).origin? 0 = some ⟨r, 0⟩ := by
    rw [hstep 2 _ rfl, origin?_reopen (hknown 2).2, hstep 1 _ rfl, origin?_edit, hcreated]
  have hreplayed : (trail 4).origin? 0 = some ⟨r, 1⟩ := by
    rw [hstep 3 _ rfl]
    exact (hknown 3).1.replayed 0 _ _ ⟨201, "", 8⟩ hopened hbase rfl
  have htwice : (trail 6).origin? 0 = some ⟨r, 2⟩ := by
    rw [hstep 5 _ rfl]
    refine (hknown 5).1.replayed 0 ⟨r, 1⟩ _ ⟨201, "", 8⟩ ?_ hbase rfl
    rw [hstep 4 _ rfl, origin?_reopen (hknown 4).2, hreplayed]
  obtain ⟨e, he, hverbatim⟩ := (hknown 6).1.verbatim 0 _ htwice
  obtain ⟨base, hsame, hsent⟩ := hverbatim.sent
  obtain rfl := Option.some.inj (hbase.symm.trans hsame)
  exact ⟨e, hend ▸ he, hverbatim.label, (hsent w t.store ()).2⟩

end Trail

end TicketDesk
