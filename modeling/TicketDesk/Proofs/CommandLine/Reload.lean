import TicketDesk.Proofs.CommandLine.Job
import TicketDesk.Proofs.Execution
import TicketDesk.Proofs.Store.Coherence
import TicketDesk.Proofs.Store.Writes
import TicketDesk.Proofs.Work.Course

/-! # What a request of one's own leaves for the next start

A body on the command line may nest as deep as any document. In the text of the log it stands two containers
deeper, in the list and in its entry, and the text is read under the same limit. So a body that nests at most
125 containers comes back with the whole log, and one of 126 or 127 makes the text unreadable: the next start
finds an empty log. -/

namespace TicketDesk

/-! ### Nested bodies -/

/-- An empty array inside so many others. -/
def Json.nested : Nat → Json
  | 0 => .array []
  | n + 1 => .array [nested n]

theorem Json.portable_nested (n : Nat) : (nested n).Portable (n + 1) := by
  induction n with
  | zero => exact ⟨rfl, rfl, Nat.le_refl 1⟩
  | succ n ih =>
    refine ⟨?_, ?_, ?_⟩
    · simp [nested, isExact, exactItems, ih.exact]
    · simp [nested, isSorted, sortedItems, ih.sorted]
    · have hshallow := ih.shallow
      simp only [nested, depth, depthItems]
      omega

theorem Json.depth_nested (n : Nat) : (nested n).depth = n + 1 := by
  induction n with
  | zero => rfl
  | succ n ih => simp [nested, depth, depthItems, ih]

/-! ### Recorded answers -/

namespace Store

variable {s : Store} {r : Request} {a : Answer} {m : Moment} {v : Json}

/-- When an answer is recorded, the log is opened again as it is if the body of the request nests no more than 125
    containers, and as an empty one otherwise. -/
theorem history_reload_record (h : s.Coherent) (hbody : r.call.body = some v) (hv : v.isExact = true)
    (hsorted : v.isSorted = true) :
    (load (r.record a m s).backend).state.history =
      if v.depth ≤ 125 then (r.record a m s).state.history else .empty := by
  split
  case isTrue hshallow =>
    have hportable : ∀ e, .record e ∈ [Update.result (.ofAnswer r.label a), .record (.record r.label r.call a m)] →
        e.Portable := by
      intro e he u hu
      obtain rfl : e = .record r.label r.call a m := by simpa using he
      have hsame : some v = some u := hbody.symm.trans hu
      exact Option.some.inj hsame ▸ ⟨hv, hsorted, hshallow⟩
    have hreload := congrArg State.history (h.updateAll hportable).state_reload
    exact hreload
  case isFalse hdeep =>
    have hmem : Entry.record r.label r.call a m ∈ (r.record a m s).state.history.entries := List.mem_cons_self
    have hlost := State.loadHistory_toJson_of_deep hmem hbody (Nat.not_le.mp hdeep)
    have hwritable : s.writable = true := h.accepts _
    rw [← r.blobs_record a m s hwritable] at hlost
    exact hlost

/-- Whoever is logged in still is, whatever becomes of the log. -/
theorem session_reload_record (haccepts : ∀ n, s.backend.accepts n = true) :
    (load (r.record a m s).backend).state.session = (load s.backend).state.session := by
  have hkept : (r.record a m s).backend.blobs .session = s.backend.blobs .session := by
    refine blobs_updateAll_of_not_key haccepts fun u hu => ?_
    rcases List.mem_pair.mp hu with rfl | rfl <;> exact nofun
  exact congrArg State.loadSession hkept

theorem writable_reload_record (haccepts : ∀ n, s.backend.accepts n = true) :
    (load (r.record a m s).backend).writable = true := by
  have hstill : (r.record a m s).backend.accepts = s.backend.accepts := accepts_updateAll s _
  rw [writable, load, hstill, haccepts]

end Store

namespace CommandLine

/-! ### Requests of one's own -/

section Exec

variable {σ : Type} {c : Config} {w : World σ} {s : Store} {x : σ} {session : Session} {service : Service}
  {method : Method} {path text : String} {label : Option String} {v : Json}

/-- The request that a user makes with a body. -/
def ownRequest (service : Service) (method : Method) (path : String) (label : Option String) (v : Json) : Request :=
  { label := label.getD (method.name ++ " " ++ path), call := ⟨service, method, path, some v⟩ }

theorem exec_eq (hpath : path.toList.head? = some '/') (hread : Json.read? text = some v) :
    exec c service method path (some text) label =
      report ((ownRequest service method path label v).execute c) fun _ => Job.ok := by
  simp [exec, hpath, hread, ownRequest]

/-- With a session, a request of one's own that is answered leaves the store with its answer recorded. -/
theorem store_exec {base : String} {a : Answer} (hsession : s.state.session = some session)
    (hpath : path.toList.head? = some '/') (hread : Json.read? text = some v) (hbase : c.baseUrl? service = some base)
    (hanswer : (w.send ((ownRequest service method path label v).wire base) x).1 = .answer a) :
    ∃ m, (((Command.exec service method path (some text) label).job c).run w s x).2.1 =
      (ownRequest service method path label v).record a m s := by
  have hjob : ((Command.exec service method path (some text) label).job c).run w s x =
      (exec c service method path (some text) label).run w s x := run_withSession hsession w x
  have hquiet : (ownRequest service method path label v).captures a = [] := by simp [Request.captures, ownRequest]
  obtain ⟨m, hstore⟩ := Request.store_execute (s := s) hbase hanswer
  rw [hquiet] at hstore
  rw [hjob, exec_eq hpath hread, (run_report _ (fun _ => Job.ends_ok) w s x).2]
  exact ⟨m, hstore⟩

end Exec

/-- Whatever log is there, a request with a body that the command line accepts is recorded when it is answered, in
    front of the earlier entries, and the next start finds the log as it is then exactly if the body nests no more
    than 125 containers. With a deeper body it finds nothing. No body holds a binary64 number. -/
theorem reload_exec {σ : Type} (c : Config) (w : World σ) (x : σ) {b : Backend} (hb : ∀ n, b.accepts n = true)
    (hexact : ∀ e ∈ (Store.load b).state.history.entries, ∀ v, e.body = some v → v.isExact = true) {session : Session}
    (hsession : (Store.load b).state.session = some session) {service : Service} {method : Method} {path text : String}
    {label : Option String} {v : Json} (hpath : path.toList.head? = some '/') (hread : Json.read? text = some v)
    (hv : v.isExact = true) {base : String} (hbase : c.baseUrl? service = some base) {a : Answer}
    (hanswer : (w.send ((ownRequest service method path label v).wire base) x).1 = .answer a) :
    let after := (((Command.exec service method path (some text) label).job c).run w (Store.load b) x).2.1
    (∃ e : Entry, e.body = some v ∧ e.path = path ∧ e.status = a.status ∧
      after.state.history.entries = (e :: (Store.load b).state.history.entries).take 100) ∧
    (Store.load after.backend).state.history = if v.depth ≤ 125 then after.state.history else .empty := by
  obtain ⟨m, hstore⟩ := store_exec hsession hpath hread hbase hanswer
  rw [hstore]
  obtain ⟨written, -, hvalue⟩ := Option.bind_eq_some_iff.mp hread
  have hsorted := (Json.Written.shape_of_value? hvalue).1
  exact ⟨⟨.record _ _ a m, rfl, rfl, rfl, rfl⟩,
    Store.history_reload_record (Store.coherent_load hb hexact) rfl hv hsorted⟩

/-! ### At the limit -/

/-- The texts of a console that someone is logged in to, with one entry in its log. -/
def Started.blobs : Blobs
  | .session => some (Session.toJson ⟨"ops", "tok"⟩).write
  | .drafts => none
  | .history => some (History.toJson ⟨[⟨"1-1", "09:00:00", "Health", .query, .get, "/healthz", none, true, 200, 3⟩]⟩).write

/-- A backend that has an empty answer to everything. -/
def Started.world : World Unit := .saying (.answer ⟨200, "", 5⟩) ⟨2, 7, "09:00:01"⟩ 0

/-- The store after a body nested so deep is posted from a console that was started. -/
def Started.afterPost (n : Nat) : Store :=
  (((Command.exec .order .post "/x" (some (Json.nested n).write) none).job .initial).run Started.world
    (.load (.reliable Started.blobs)) ()).2.1

theorem Started.session_load : (Store.load (.reliable blobs)).state.session = some ⟨"ops", "tok"⟩ := by
  have hblob : (Backend.reliable blobs).blobs .session = some (Session.toJson ⟨"ops", "tok"⟩).write := rfl
  rw [Store.load, State.ofBlobs, hblob, State.loadSession_toJson]

theorem Started.history_load : (Store.load (.reliable blobs)).state.history =
    ⟨[⟨"1-1", "09:00:00", "Health", .query, .get, "/healthz", none, true, 200, 3⟩]⟩ :=
  State.loadHistory_toJson (fun e he v hv => by simp [List.mem_singleton.mp he] at hv) (by decide)

theorem Started.exact_load : ∀ e ∈ (Store.load (.reliable blobs)).state.history.entries, ∀ v, e.body = some v →
    v.isExact = true := by
  intro e he v hv
  rw [history_load] at he
  simp [List.mem_singleton.mp he] at hv

theorem Started.read_nested {n : Nat} (h : n < 127) : Json.read? (Json.nested n).write = some (Json.nested n) :=
  Json.read?_write { Json.portable_nested n with shallow := Nat.le_trans (Json.portable_nested n).shallow h }

theorem Started.baseUrl?_order : Config.initial.baseUrl? .order = some (Config.bareUrl Service.order.localUrl) := rfl

/-- A body of 125 containers is there at the next start, and so is the entry from before. -/
theorem reload_exec_of_limit :
    (Started.afterPost 124).state.history.entries.map (·.path) = ["/x", "/healthz"] ∧
    (Store.load (Started.afterPost 124).backend).state.history = (Started.afterPost 124).state.history := by
  have hread := Started.read_nested (show 124 < 127 by decide)
  have hdepth := Json.depth_nested 124
  have hexact := (Json.portable_nested 124).exact
  rw [Started.afterPost]
  generalize Json.nested 124 = v at hread hdepth hexact ⊢
  obtain ⟨⟨e, -, hpath, -, hentries⟩, hreload⟩ := @reload_exec Unit .initial Started.world () _ (fun _ => rfl)
    Started.exact_load _ Started.session_load .order .post "/x" _ none v rfl hread hexact _ Started.baseUrl?_order _ rfl
  rw [hdepth, if_pos (Nat.le_refl 125)] at hreload
  refine ⟨?_, hreload⟩
  rw [hentries, Started.history_load]
  simp [hpath]

/-- Someone who is logged in clears the log: its text is that of an empty one. -/
theorem blobs_clearHistory {σ : Type} (c : Config) (w : World σ) (x : σ) {s : Store} (hwritable : s.writable = true)
    {session : Session} (hsession : s.state.session = some session) :
    ((Command.clearHistory.job c).run w s x).2.1.backend.blobs .history = some "[]" := by
  have hjob : (Command.clearHistory.job c).run w s x = (Command.clearHistory.jobInSession c).run w s x :=
    run_withSession hsession w x
  rw [hjob]
  exact Store.blobs_update_of_writable hwritable .clearHistory .history

/-- A body of 126 containers is accepted and recorded, and the next start finds an empty log: the entry from before is
    lost with the new one. What is still there, to be read by no start, goes when the log is cleared. -/
theorem exec_empties_history :
    let reopened := Store.load (Started.afterPost 125).backend
    (Json.read? (Json.nested 125).write).isSome = true ∧
    (Started.afterPost 125).state.history.entries.map (·.path) = ["/x", "/healthz"] ∧
    reopened.state.history.entries = [] ∧ (reopened.backend.blobs .history).isSome = true ∧
    ((Command.clearHistory.job .initial).run Started.world reopened ()).2.1.backend.blobs .history = some "[]" := by
  intro reopened
  have hread := Started.read_nested (show 125 < 127 by decide)
  have hdepth := Json.depth_nested 125
  have hportable := Json.portable_nested 125
  dsimp only [reopened]
  rw [Started.afterPost]
  generalize Json.nested 125 = v at hread hdepth hportable ⊢
  have hstored : ∃ m, (((Command.exec .order .post "/x" (some v.write) none).job .initial).run Started.world
      (.load (.reliable Started.blobs)) ()).2.1 =
      (ownRequest .order .post "/x" none v).record ⟨200, "", 5⟩ m (.load (.reliable Started.blobs)) :=
    store_exec Started.session_load rfl hread Started.baseUrl?_order rfl
  obtain ⟨m, hstore⟩ := hstored
  rw [hstore]
  refine ⟨by rw [hread]; rfl, ?_, ?_, ?_, ?_⟩
  · rw [Request.history_record, Started.history_load]
    rfl
  · rw [Store.history_reload_record (Store.coherent_load (fun _ => rfl) Started.exact_load) rfl hportable.exact
      hportable.sorted, hdepth, if_neg (by decide)]
    rfl
  · have hblob := (ownRequest .order .post "/x" none v).blobs_record ⟨200, "", 5⟩ m (.load (.reliable Started.blobs)) rfl
    rw [Store.load, hblob]
    rfl
  · exact blobs_clearHistory .initial Started.world () (Store.writable_reload_record fun _ => rfl)
      ((Store.session_reload_record fun _ => rfl).trans Started.session_load)

end CommandLine

end TicketDesk
