import TicketDesk.CommandLine.Program
import TicketDesk.Execution
import TicketDesk.Proofs.Store.Writes
import TicketDesk.Proofs.Work.Course
import TicketDesk.Proofs.Work.Sent

/-! # The contract of a request

A request ends in one of three ways. Its service has no base URL: nothing is sent and nothing changes.
It is sent and not answered: nothing changes. It is sent and answered: the result and then the history
are committed, then the drafts when the status is 2xx and the request has a hook. What is printed on the
command line is printed in the third case only. -/

namespace TicketDesk.Request

/-! ### Endings -/

/-- What there is to see of a request once it is over: its outcome, the store, and what was sent. -/
structure Trace where
  outcome : Except Fault Json
  store : Store
  sent : List Wire

def trace {σ : Type} (c : Config) (r : Request) (w : World σ) (s : Store) (x : σ) : Trace :=
  ⟨((r.execute c).run w s x).1, ((r.execute c).run w s x).2.1, (r.execute c).sent w s x⟩

inductive Ending where
  | unconfigured
  | unanswered (detail : String)
  | answered (a : Answer)

/-- A request as it goes out to the service at a base URL. -/
def wire (r : Request) (base : String) : Wire := ⟨r.call.method, base ++ r.call.path, r.call.sentBody⟩

/-- The request went out once, to the base URL of its service, and this came of it. -/
def SentOnce {σ : Type} (c : Config) (r : Request) (w : World σ) (x : σ) (t : Trace) (reply : Reply) : Prop :=
  ∃ base, c.baseUrl? r.call.service = some base ∧ t.sent = [r.wire base] ∧ (w.send (r.wire base) x).1 = reply

/-- The service has no base URL. -/
structure Unconfigured (c : Config) (r : Request) (s : Store) (t : Trace) : Prop where
  base : c.baseUrl? r.call.service = none
  outcome : t.outcome = .error (.config ("no base URL configured for service '" ++ r.call.service.name ++ "'"))
  sent : t.sent = []
  store : t.store = s
  printed : CommandLine.wasAnswered t.outcome = false

/-- No answer came. -/
structure Unanswered (s : Store) (detail : String) (t : Trace) : Prop where
  outcome : t.outcome = .error (.network detail)
  store : t.store = s
  printed : CommandLine.wasAnswered t.outcome = false

/-- What an answer with status 2xx makes of the drafts: with a hook, the order id is what stands under `OrderID` in the
    data, a text as it is and any other value as compact JSON. Without a hook or such a member they stay as they are. -/
structure Captured (r : Request) (data : Json) (before after : Drafts) : Prop where
  text : ∀ id, r.hook = some .captureOrderId → data.member? "OrderID" = some (.text id) →
    after = { before with orderId := id }
  other : ∀ v, r.hook = some .captureOrderId → data.member? "OrderID" = some v → (∀ id, v ≠ .text id) →
    after = { before with orderId := v.write }
  missing : r.hook = none ∨ data.member? "OrderID" = none → after = before

/-- What the store has of an answer, whatever its status: the newest entry, and the result to show. -/
structure Recorded (r : Request) (a : Answer) (before after : State) : Prop where
  history : ∃ e : Entry, after.history.entries = (e :: before.history.entries).take 100 ∧
    e.label = r.label ∧ e.service = r.call.service ∧ e.method = r.call.method ∧ e.path = r.call.path ∧
    e.body = r.call.body ∧ e.status = a.status ∧ (e.ok = true ↔ 200 ≤ a.status ∧ a.status < 300)
  result : after.result = ⟨r.label, parseBody a.body, some a.status, some a.durationMs⟩
  session : after.session = before.session
  health : after.health = before.health

/-- An answer came and was recorded. -/
structure Answered (r : Request) (s : Store) (a : Answer) (t : Trace) : Prop where
  commits : t.store.commits =
    (if (200 ≤ a.status ∧ a.status < 300) ∧ r.hook.isSome then [.drafts] else []) ++ .history :: .result :: s.commits
  recorded : r.Recorded a s.state t.store.state
  failure : ¬(200 ≤ a.status ∧ a.status < 300) →
    t.outcome = .error (.http a.status (renderBody (parseBody a.body))) ∧ t.store.state.drafts = s.state.drafts
  success : 200 ≤ a.status ∧ a.status < 300 →
    t.outcome = .ok (parseBody a.body) ∧ r.Captured (parseBody a.body) s.state.drafts t.store.state.drafts
  printed : CommandLine.wasAnswered t.outcome = true

/-- Whether a request that was made in a world ended in this way. -/
def Ends {σ : Type} (c : Config) (r : Request) (w : World σ) (s : Store) (x : σ) (t : Trace) : Ending → Prop
  | .unconfigured => Unconfigured c r s t
  | .unanswered detail => SentOnce c r w x t (.unreachable detail) ∧ Unanswered s detail t
  | .answered a => SentOnce c r w x t (.answer a) ∧ Answered r s a t

/-! ### Statuses -/

theorem isSuccess_iff {status : UInt16} : isSuccess status = true ↔ 200 ≤ status ∧ status < 300 := by
  simp [isSuccess]

/-! ### Answers -/

section Answers

variable {σ : Type} {c : Config} {r : Request} {w : World σ} {s : Store} {x : σ}

/-- A hook changes no draft but the order id, and that only to what stands in the data. -/
theorem captured_apply {data : Json} {d : Drafts} {hook : Hook} (h : r.hook = some hook) :
    r.Captured data d (hook.apply data d) where
  text id _ hid := by
    cases hook
    simp only [Hook.apply, createdOrderId?, hid, Option.map_some, renderBody]
  other v _ hv hother := by
    cases hook
    cases v with
    | text id => exact absurd rfl (hother id)
    | _ => simp only [Hook.apply, createdOrderId?, hv, Option.map_some, renderBody]
  missing hnone := by
    rcases hnone with hnone | hnone
    · simp [h] at hnone
    · cases hook
      simp only [Hook.apply, createdOrderId?, hnone, Option.map_none]

/-- The store once an answer that came at a moment is recorded. -/
def record (r : Request) (a : Answer) (m : Moment) (s : Store) : Store :=
  s.updateAll [.result (.ofAnswer r.label a), .record (.record r.label r.call a m)]

/-- What the hook of a request makes of an answer that is a success. -/
def captures (r : Request) (a : Answer) : List Update :=
  if isSuccess a.status then r.hook.toList.map fun hook => .drafts (.capture hook a.data) else []

theorem recorded_record (a : Answer) (m : Moment) : r.Recorded a s.state (r.record a m s).state where
  history := ⟨.record r.label r.call a m, rfl, rfl, rfl, rfl, rfl, rfl, rfl, isSuccess_iff⟩
  result := rfl
  session := rfl
  health := rfl

/-- A hook leaves the drafts, or puts one text or another in the place of the order id. -/
theorem Captured.orderId {data : Json} {before after : Drafts} (h : r.Captured data before after)
    (hhook : r.hook = some .captureOrderId) : after = before ∨ ∃ id, after = { before with orderId := id } := by
  cases hv : data.member? "OrderID" with
  | none => exact Or.inl (h.missing (Or.inr hv))
  | some v =>
    by_cases htext : ∃ id, v = .text id
    · obtain ⟨id, rfl⟩ := htext
      exact Or.inr ⟨id, h.text id hhook hv⟩
    · exact Or.inr ⟨v.write, h.other v hhook hv fun id he => htext ⟨id, he⟩⟩

theorem run_conclude_failure {a : Answer} (h : ¬isSuccess a.status = true) :
    (r.conclude a).run w s x = (.error (.http a.status (renderBody (parseBody a.body))), s, x) := by
  rw [conclude, if_neg h]
  rfl

theorem run_conclude_success {a : Answer} (h : isSuccess a.status = true) :
    (r.conclude a).run w s x =
      (.ok (parseBody a.body), s.updateAll (r.hook.toList.map fun hook => .drafts (.capture hook (parseBody a.body))), x) := by
  rw [conclude, if_pos h]
  cases r.hook <;> rfl

theorem sent_conclude (a : Answer) : (r.conclude a).sent w s x = [] := by
  rw [conclude]
  split
  · split <;> rfl
  · rfl

/-- What follows the recording leaves what an answered request leaves. -/
theorem answered_conclude (a : Answer) (m : Moment) (sent : List Wire) :
    Answered r s a ⟨((r.conclude a).run w (r.record a m s) x).1, ((r.conclude a).run w (r.record a m s) x).2.1, sent⟩ := by
  have hrecorded := recorded_record (r := r) (s := s) a m
  by_cases hok : isSuccess a.status = true
  · have hin := isSuccess_iff.mp hok
    rw [run_conclude_success hok]
    cases hhook : r.hook with
    | none =>
      exact {
        commits := by simp [hhook]; rfl
        recorded := hrecorded
        failure := fun hout => absurd hin hout
        success := fun _ => ⟨rfl, ⟨fun _ hc => by simp [hhook] at hc, fun _ hc => by simp [hhook] at hc, fun _ => rfl⟩⟩
        printed := rfl }
    -- The hook adds a commit of the drafts and touches nothing that was recorded.
    | some hook =>
      exact {
        commits := by simp [hin, hhook]; rfl
        recorded := { hrecorded with }
        failure := fun hout => absurd hin hout
        success := fun _ => ⟨rfl, captured_apply hhook⟩
        printed := rfl }
  · have hout : ¬(200 ≤ a.status ∧ a.status < 300) := fun hin => hok (isSuccess_iff.mpr hin)
    rw [run_conclude_failure hok]
    exact {
      commits := by simp [hout]; rfl
      recorded := hrecorded
      failure := fun _ => ⟨rfl, rfl⟩
      success := fun hin => absurd hin hout
      printed := rfl }

end Answers

/-! ### What is left of an answer -/

section Left

variable (r : Request) (a : Answer) (m : Moment) (s : Store)

theorem history_record : (r.record a m s).state.history = s.state.history.record (.record r.label r.call a m) := rfl

/-- The text of the log right after an answer is recorded is that of the log, if it could be written. -/
theorem blobs_record (h : s.writable = true) :
    (r.record a m s).backend.blobs .history = some (r.record a m s).state.history.toJson.write :=
  -- The result is committed first, which leaves the backend as it is.
  Store.blobs_update_of_writable (s := s.update (.result (.ofAnswer r.label a))) h
    (.record (.record r.label r.call a m)) .history

theorem slice_captures {u : Update} (hu : u ∈ r.captures a) : u.slice = .drafts := by
  rw [captures] at hu
  split at hu
  · obtain ⟨hook, -, rfl⟩ := List.mem_map.mp hu
    rfl
  · cases hu

theorem history_captures : (s.updateAll (r.captures a)).state.history = s.state.history := by
  rw [captures]
  split
  · cases r.hook <;> rfl
  · rfl

theorem blobs_captures (haccepts : ∀ n, s.backend.accepts n = true) :
    (s.updateAll (r.captures a)).backend.blobs .history = s.backend.blobs .history := by
  refine Store.blobs_updateAll_of_not_key haccepts fun u hu hkey => ?_
  rw [slice_captures r a hu] at hkey
  cases hkey

end Left

/-! ### The contract -/

section Contract

variable {σ : Type} {c : Config} {r : Request} {w : World σ} {s : Store} {x : σ}

theorem execute_of_no_base (h : c.baseUrl? r.call.service = none) :
    r.execute c = .done (.error (.noBaseUrl r.call.service)) := by
  rw [execute, Config.url_of_no_base h]

theorem execute_of_base {base : String} (hb : c.baseUrl? r.call.service = some base) :
    r.execute c = .send (r.wire base) fun
      | .unreachable detail => .done (.error (.network detail))
      | .answer a => r.settle a := by
  rw [execute, Config.url_of_base hb]
  rfl

theorem ends_of_no_base (h : c.baseUrl? r.call.service = none) : Ends c r w s x (r.trace c w s x) .unconfigured := by
  have htrace : r.trace c w s x = ⟨.error (.noBaseUrl r.call.service), s, []⟩ := by
    rw [trace, execute_of_no_base h]
    rfl
  rw [htrace]
  exact { base := h, outcome := rfl, sent := rfl, store := rfl, printed := rfl }

theorem ends_of_unreachable {base detail : String} (hb : c.baseUrl? r.call.service = some base)
    (hr : (w.send (r.wire base) x).1 = .unreachable detail) :
    Ends c r w s x (r.trace c w s x) (.unanswered detail) := by
  have htrace : r.trace c w s x = ⟨.error (.network detail), s, [r.wire base]⟩ := by
    simp [trace, execute_of_base hb, Work.run, Work.sent, hr]
  rw [htrace]
  exact ⟨⟨base, hb, rfl, hr⟩, { outcome := rfl, store := rfl, printed := rfl }⟩

theorem ends_of_answer {base : String} {a : Answer} (hb : c.baseUrl? r.call.service = some base)
    (hr : (w.send (r.wire base) x).1 = .answer a) : Ends c r w s x (r.trace c w s x) (.answered a) := by
  have htrace : ∃ m x', r.trace c w s x =
      ⟨((r.conclude a).run w (r.record a m s) x').1, ((r.conclude a).run w (r.record a m s) x').2.1, [r.wire base]⟩ := by
    refine ⟨(w.moment (w.send (r.wire base) x).2).1, (w.moment (w.send (r.wire base) x).2).2, ?_⟩
    simp [trace, execute_of_base hb, Work.run, Work.sent, hr, settle, sent_conclude, record]
  obtain ⟨m, x', htrace⟩ := htrace
  rw [htrace]
  exact ⟨⟨base, hb, rfl, hr⟩, answered_conclude a m _⟩

/-- What follows the recording changes the drafts at most. -/
theorem store_conclude (a : Answer) : ((r.conclude a).run w s x).2.1 = s.updateAll (r.captures a) := by
  by_cases hok : isSuccess a.status = true
  · rw [run_conclude_success hok, captures, if_pos hok]
    rfl
  · rw [run_conclude_failure hok, captures, if_neg hok]
    rfl

/-- A request that is answered leaves the store with its answer recorded, and with what its hook makes of it. -/
theorem store_execute {base : String} {a : Answer} (hb : c.baseUrl? r.call.service = some base)
    (hr : (w.send (r.wire base) x).1 = .answer a) :
    ∃ m, ((r.execute c).run w s x).2.1 = (r.record a m s).updateAll (r.captures a) := by
  refine ⟨(w.moment (w.send (r.wire base) x).2).1, ?_⟩
  simp [execute_of_base hb, Work.run, hr, settle, store_conclude, record]

theorem wasAnswered_execute {base : String} {a : Answer} (hb : c.baseUrl? r.call.service = some base)
    (hr : (w.send (r.wire base) x).1 = .answer a) : CommandLine.wasAnswered ((r.execute c).run w s x).1 = true :=
  (ends_of_answer (s := s) hb hr).2.printed

/-- A request changes nothing, or it is answered and its answer is recorded. -/
theorem store_execute_cases (c : Config) (r : Request) (w : World σ) (s : Store) (x : σ) :
    (CommandLine.wasAnswered ((r.execute c).run w s x).1 = false ∧ ((r.execute c).run w s x).2.1 = s) ∨
    ∃ base a m, c.baseUrl? r.call.service = some base ∧ CommandLine.wasAnswered ((r.execute c).run w s x).1 = true ∧
      ((r.execute c).run w s x).2.1 = (r.record a m s).updateAll (r.captures a) := by
  cases hb : c.baseUrl? r.call.service with
  | none =>
    have hends := ends_of_no_base (w := w) (s := s) (x := x) hb
    exact Or.inl ⟨hends.printed, hends.store⟩
  | some base =>
    cases hr : (w.send (r.wire base) x).1 with
    | unreachable detail =>
      have hends := ends_of_unreachable (s := s) hb hr
      exact Or.inl ⟨hends.2.printed, hends.2.store⟩
    | answer a =>
      obtain ⟨m, hstore⟩ := store_execute (s := s) hb hr
      exact Or.inr ⟨base, a, m, rfl, wasAnswered_execute hb hr, hstore⟩

/-- A request goes out once when its service has a base URL, whatever comes of it. -/
theorem sent_execute {base : String} (hb : c.baseUrl? r.call.service = some base) :
    (r.execute c).sent w s x = [r.wire base] := by
  have hsent {reply : Reply} (h : SentOnce c r w x (r.trace c w s x) reply) : (r.execute c).sent w s x = [r.wire base] := by
    obtain ⟨base', hb', hsent, -⟩ := h
    obtain rfl : base = base' := Option.some.inj (hb.symm.trans hb')
    exact hsent
  cases hr : (w.send (r.wire base) x).1 with
  | unreachable detail => exact hsent (ends_of_unreachable (s := s) hb hr).1
  | answer a => exact hsent (ends_of_answer (s := s) hb hr).1

theorem SentOnce.reply_unique {t : Trace} {reply reply' : Reply} (h : SentOnce c r w x t reply)
    (h' : SentOnce c r w x t reply') : reply = reply' := by
  obtain ⟨base, hb, -, hr⟩ := h
  obtain ⟨base', hb', -, hr'⟩ := h'
  obtain rfl : base = base' := Option.some.inj (hb.symm.trans hb')
  exact hr.symm.trans hr'

theorem SentOnce.not_unconfigured {t : Trace} {reply : Reply} (h : SentOnce c r w x t reply) :
    ¬Unconfigured c r s t := by
  obtain ⟨base, hb, -, -⟩ := h
  exact fun hu => by simp [hu.base] at hb

/-- A request that is made in any world and any state ends in one way, and in one way only. -/
theorem execute_ends (c : Config) (r : Request) (w : World σ) (s : Store) (x : σ) :
    ∃ e, Ends c r w s x (r.trace c w s x) e ∧ ∀ e', Ends c r w s x (r.trace c w s x) e' → e' = e := by
  cases hb : c.baseUrl? r.call.service with
  | none =>
    refine ⟨.unconfigured, ends_of_no_base hb, fun e' he' => ?_⟩
    cases e' with
    | unconfigured => rfl
    | unanswered detail => exact absurd (ends_of_no_base hb) he'.1.not_unconfigured
    | answered a => exact absurd (ends_of_no_base hb) he'.1.not_unconfigured
  | some base =>
    cases hr : (w.send (r.wire base) x).1 with
    | unreachable detail =>
      have hends := ends_of_unreachable (s := s) hb hr
      refine ⟨.unanswered detail, hends, fun e' he' => ?_⟩
      cases e' with
      | unconfigured => exact absurd he' hends.1.not_unconfigured
      | unanswered detail' => cases he'.1.reply_unique hends.1; rfl
      | answered a => cases he'.1.reply_unique hends.1
    | answer a =>
      have hends := ends_of_answer (s := s) hb hr
      refine ⟨.answered a, hends, fun e' he' => ?_⟩
      cases e' with
      | unconfigured => exact absurd he' hends.1.not_unconfigured
      | unanswered detail => cases he'.1.reply_unique hends.1
      | answered a' => cases he'.1.reply_unique hends.1; rfl

/-- The answer to the creation of an order has a number for its id, which becomes the order id as a text. -/
theorem execute_ends_of_number :
    let r := Action.createOrder.request {}
    let a : Answer := ⟨201, (Json.ofMembers [("OrderID", .ofInt64 7)]).write, 5⟩
    let w : World Unit := .saying (.answer a) ⟨2, 7, "09:00:01"⟩ 0
    let s := Store.load .unwritable
    Ends .initial r w s () (r.trace .initial w s ()) (.answered a) ∧
      (r.trace .initial w s ()).store.state.drafts.orderId = "7" := by
  intro r a w s
  have hb : Config.initial.baseUrl? r.call.service = some "http://127.0.0.1:8081" := by decide
  have hr : (w.send (r.wire "http://127.0.0.1:8081") ()).1 = .answer a := rfl
  obtain ⟨e, hends, honly⟩ := execute_ends .initial r w s ()
  obtain rfl := honly _ (ends_of_answer hb hr)
  exact ⟨hends, by decide +kernel⟩

end Contract

end TicketDesk.Request
