import Mathlib.Data.List.Forall2
import Mathlib.Data.List.Induction
import TicketDesk.Proofs.Execution
import TicketDesk.Proofs.History
import TicketDesk.Proofs.Work.Effects

/-! # What a task leaves

A task that is run with nothing else going on records its answers and leaves the rest: each answer has an
entry in the history and was the last result for a while. Beyond that a task keeps at most the id of the order
it created, and the health of the services it checked. -/

namespace TicketDesk

open Work (answered answered_append exchanges_bind run_bind)

/-! ### Entries of a log -/

/-- An entry is that of a request which went out like this and was answered like that. -/
structure Entry.Records (c : Config) (e : Entry) (sent : Wire × Answer) : Prop where
  method : e.method = sent.1.method
  url : c.url e.call = .ok sent.1.url
  body : e.call.sentBody = sent.1.body
  status : e.status = sent.2.status
  ok : e.ok = true ↔ 200 ≤ sent.2.status ∧ sent.2.status < 300
  durationMs : e.durationMs = sent.2.durationMs

theorem Entry.records_record {c : Config} {r : Request} {base : String} (hb : c.baseUrl? r.call.service = some base)
    (a : Answer) (m : Moment) : (Entry.record r.label r.call a m).Records c (r.wire base, a) where
  method := rfl
  url := Config.url_of_base hb
  body := rfl
  status := rfl
  ok := Request.isSuccess_iff
  durationMs := rfl

/-- The result to show goes with an entry. -/
def LastResult.Shows (r : LastResult) (e : Entry) : Prop :=
  r.title = e.label ∧ r.status = some e.status ∧ r.durationMs = some e.durationMs

namespace History

theorem foldl_record (h : History) {es : List Entry} (hes : es ≠ [] ∨ h.entries.length ≤ capacity) :
    (es.foldl record h).entries = (es.reverse ++ h.entries).take capacity := by
  induction es using List.reverseRecOn with
  | nil =>
    have hle : h.entries.length ≤ capacity := by simpa using hes
    rw [List.foldl_nil, List.reverse_nil, List.nil_append, List.take_of_length_le hle]
  | append_singleton es e ih =>
    rw [List.foldl_append, List.reverse_concat, List.cons_append]
    by_cases hnil : es = []
    · simp [hnil, record]
    · -- The older entries that the log has dropped would not be among the first of the longer list either.
      show (e :: (es.foldl record h).entries).take capacity = _
      rw [ih (Or.inl hnil)]
      exact take_grown_take _ (.record e)

theorem latest?_foldl_record (h : History) (es : List Entry) (e : Entry) :
    ((es ++ [e]).foldl record h).latest? = some e := by
  rw [List.foldl_append]
  rfl

end History

/-! ### What a run records -/

/-- Between two stores these answers, and no others, were recorded, in this order. -/
structure Logged (c : Config) (s t : Store) (answers : List (Wire × Answer)) : Prop where
  entries : ∃ es : List Entry, List.Forall₂ (Entry.Records c) es answers ∧
    t.state.history = es.foldl History.record s.state.history ∧
    (∀ e, es.getLast? = some e → t.state.result.Shows e) ∧ (es = [] → t.state.result = s.state.result)
  commits : ∃ new : List Slice, t.commits = new ++ s.commits ∧ new.count .session = 0 ∧
    new.count .result = answers.length ∧ new.count .history = answers.length

namespace Logged

variable {c : Config} {s t u : Store} {answers later : List (Wire × Answer)}

theorem refl (c : Config) (s : Store) : Logged c s s [] where
  entries := ⟨[], .nil, rfl, by simp, fun _ => rfl⟩
  commits := ⟨[], rfl, rfl, rfl, rfl⟩

theorem trans (h : Logged c s t answers) (h' : Logged c t u later) : Logged c s u (answers ++ later) where
  entries := by
    obtain ⟨es, hes, hhist, hlast, hnone⟩ := h.entries
    obtain ⟨es', hes', hhist', hlast', hnone'⟩ := h'.entries
    refine ⟨es ++ es', List.rel_append hes hes', by rw [hhist', hhist, List.foldl_append], fun e he => ?_, fun he => ?_⟩
    · rw [List.getLast?_append] at he
      by_cases hnil : es' = []
      · rw [hnone' hnil]
        exact hlast e (by simpa [hnil] using he)
      · obtain ⟨x, hx⟩ := Option.isSome_iff_exists.mp (List.getLast?_isSome.mpr hnil)
        rw [hx, Option.some_or] at he
        exact hlast' e (hx.trans he)
    · obtain ⟨hnil, hnil'⟩ := List.append_eq_nil_iff.mp he
      exact (hnone' hnil').trans (hnone hnil)
  commits := by
    obtain ⟨new, hnew, hsession, hresult, hhistory⟩ := h.commits
    obtain ⟨new', hnew', hsession', hresult', hhistory'⟩ := h'.commits
    refine ⟨new' ++ new, by rw [hnew', hnew, List.append_assoc], ?_, ?_, ?_⟩
    all_goals
      simp only [List.count_append, List.length_append]
      omega

/-- Updates that record nothing, and leave the session, are not seen. -/
theorem updateAll (h : Logged c s t answers) {us : List Update} (hus : ∀ u ∈ us, u.slice = .drafts ∨ u.slice = .health) :
    Logged c s (t.updateAll us) answers := by
  induction us generalizing t with
  | nil => exact h
  | cons u us ih =>
    rw [List.forall_mem_cons] at hus
    refine ih (t := t.update u) ?_ hus.2
    have hstate : (t.update u).state.history = t.state.history ∧ (t.update u).state.result = t.state.result := by
      cases u with
      | drafts edit => exact ⟨rfl, rfl⟩
      | health service h => exact ⟨rfl, rfl⟩
      | _ => simp [Update.slice] at hus
    exact {
      entries := by
        obtain ⟨es, hes, hhist, hlast, hnone⟩ := h.entries
        rw [hstate.1, hstate.2]
        exact ⟨es, hes, hhist, hlast, hnone⟩
      commits := by
        obtain ⟨new, hnew, hsession, hresult, hhistory⟩ := h.commits
        refine ⟨u.slice :: new, congrArg (u.slice :: ·) hnew, ?_⟩
        rcases hus.1 with hslice | hslice <;> simp [hslice, hsession, hresult, hhistory] }

theorem record {r : Request} {base : String} (hb : c.baseUrl? r.call.service = some base) (s : Store) (a : Answer)
    (m : Moment) : Logged c s (r.record a m s) [(r.wire base, a)] where
  entries := by
    refine ⟨[.record r.label r.call a m], .cons (Entry.records_record hb a m) .nil, rfl, fun e he => ?_, by simp⟩
    obtain rfl : Entry.record r.label r.call a m = e := by simpa using he
    exact ⟨rfl, rfl, rfl⟩
  commits := ⟨[.history, .result], rfl, rfl, rfl, rfl⟩

end Logged

/-- Whatever the world answers, a program records the answers to its requests and no others. -/
def Work.Logs {α : Type} (c : Config) (work : Work α) : Prop :=
  ∀ (σ : Type) (w : World σ) (s : Store) (x : σ),
    Logged c s (work.run w s x).2.1 (answered (work.exchanges w s x))

namespace Work

variable {α β : Type} {c : Config}

theorem logs_done (c : Config) (a : α) : (Work.done a).Logs c := fun _ _ s _ => .refl c s

theorem logs_look {next : State → Work α} (h : ∀ s, (next s).Logs c) : (Work.look next).Logs c :=
  fun σ w s x => h s.state σ w s x

theorem logs_moment {next : Moment → Work α} (h : ∀ m, (next m).Logs c) : (Work.moment next).Logs c :=
  fun σ w s x => h (w.moment x).1 σ w s (w.moment x).2

theorem logs_wait {millis : Nat} {next : Int → Work α} (h : ∀ now, (next now).Logs c) : (Work.wait millis next).Logs c :=
  fun σ w s x => h (w.wait millis x).1 σ w s (w.wait millis x).2

theorem logs_change {us : List Update} {next : Work α} (hus : ∀ u ∈ us, u.slice = .drafts ∨ u.slice = .health)
    (h : next.Logs c) : (Work.change us next).Logs c :=
  fun σ w s x => ((Logged.refl c s).updateAll hus).trans (h σ w (s.updateAll us) x)

theorem Logs.bind {work : Work α} {f : α → Work β} (h : work.Logs c) (hf : ∀ a, (f a).Logs c) :
    (work.bind f).Logs c := by
  intro σ w s x
  rw [run_bind, exchanges_bind, answered_append]
  exact (h σ w s x).trans (hf _ σ w _ _)

theorem Logs.onSuccess {work : Work (Except Fault α)} {f : α → Work (Except Fault β)} (h : work.Logs c)
    (hf : ∀ a, (f a).Logs c) : (work.onSuccess f).Logs c :=
  h.bind fun
    | .ok a => hf a
    | .error e => logs_done c (Except.error e)

end Work

/-! ### Requests and flows -/

section Requests

variable {σ : Type} (c : Config) (w : World σ) (s : Store) (x : σ)

/-- A request that is done is over without an answer, or goes on with one that is recorded. -/
theorem Request.execute_cases (r : Request) :
    (∃ e x', (r.execute c).run w s x = (.error e, s, x') ∧ answered ((r.execute c).exchanges w s x) = []) ∨
    ∃ base a m x', c.baseUrl? r.call.service = some base ∧
      (r.execute c).run w s x = (r.conclude a).run w (r.record a m s) x' ∧
      (r.execute c).exchanges w s x = [(r.wire base, .answer a)] := by
  have hquiet (a : Answer) (s : Store) (x : σ) : (r.conclude a).exchanges w s x = [] := by
    rw [conclude]
    split
    · split <;> rfl
    · rfl
  cases hb : c.baseUrl? r.call.service with
  | none =>
    left
    refine ⟨.noBaseUrl r.call.service, x, ?_, ?_⟩ <;>
      simp [execute_of_no_base hb, Work.run, Work.exchanges, answered]
  | some base =>
    cases hr : (w.send (r.wire base) x).1 with
    | unreachable detail =>
      left
      refine ⟨.network detail, (w.send (r.wire base) x).2, ?_, ?_⟩ <;>
        simp [execute_of_base hb, Work.run, Work.exchanges, hr, answered]
    | answer a =>
      right
      refine ⟨base, a, (w.moment (w.send (r.wire base) x).2).1, (w.moment (w.send (r.wire base) x).2).2, rfl, ?_, ?_⟩ <;>
        simp [execute_of_base hb, Work.run, Work.exchanges, hr, settle, record, hquiet]

theorem Request.logs_execute (r : Request) : (r.execute c).Logs c := by
  intro σ w s x
  rcases r.execute_cases c w s x with ⟨e, x', hrun, hex⟩ | ⟨base, a, m, x', hb, hrun, hex⟩
  · rw [hrun, hex]
    exact .refl c s
  · have hrecord := Logged.record hb s a m
    rw [hrun, hex]
    by_cases hok : isSuccess a.status = true
    · rw [run_conclude_success hok]
      exact hrecord.updateAll (by simp [Update.slice])
    · rw [run_conclude_failure hok]
      exact hrecord

end Requests

theorem Service.logs_check (c : Config) (service : Service) : (service.check c).Logs c :=
  (Work.logs_look fun s => ((Action.healthz service).request s.drafts).logs_execute c).bind fun _ =>
    Work.logs_change (by simp [Update.slice]) (Work.logs_done c _)

theorem Board.logs_checkAll (c : Config) (services : List Service) (board : Board) :
    (checkAll c services board).Logs c := by
  induction services generalizing board with
  | nil => exact Work.logs_done c board
  | cons service rest ih => exact (service.logs_check c).bind fun health => ih (board.set service health)

theorem Flow.logs_executeAll (c : Config) (rs : List Request) : (executeAll c rs).Logs c := by
  induction rs with
  | nil => exact Work.logs_done c _
  | cons r rest ih => exact (r.logs_execute c).onSuccess fun _ => ih

theorem Flow.logs_run (c : Config) (f : Flow) : (f.run c).Logs c := by
  cases f with
  | order =>
    refine Work.logs_look fun s => Work.logs_moment fun m => ?_
    refine ((createRequest s.drafts m).logs_execute c).onSuccess fun created => ?_
    split
    · exact Work.logs_done c _
    · exact Work.logs_change (by simp [Update.slice]) ((logs_executeAll c _).onSuccess fun _ => Work.logs_done c _)
  | inventory =>
    exact Work.logs_look fun s => (logs_executeAll c _).onSuccess fun _ => Work.logs_done c _

theorem logs_pollOnce (c : Config) : (pollOnce c).Logs c := by
  refine Work.logs_look fun s => ?_
  split
  · exact (Request.logs_execute c _).onSuccess fun _ => Work.logs_done c _
  · exact Work.logs_done c _

theorem Task.logs_work (c : Config) (p : Poller) (t : Task) : (t.work c p).Logs c := by
  cases t with
  | action a =>
    exact (Work.logs_look fun s => (a.request s.drafts).logs_execute c).onSuccess fun _ => Work.logs_done c _
  | replay e => exact (e.replay.logs_execute c).onSuccess fun _ => Work.logs_done c _
  | flow f => exact (f.logs_run c).onSuccess fun _ => Work.logs_done c _
  | check service => exact (service.logs_check c).bind fun _ => Work.logs_done c _
  | sweep => exact (Board.logs_checkAll c Service.all .initial).bind fun _ => Work.logs_done c _
  | poll ticket =>
    rw [work]
    split
    · refine (logs_pollOnce c).onSuccess fun data => ?_
      split <;> exact Work.logs_done c _
    · exact Work.logs_done c _

/-! ### The order that was created -/

/-- The id of the order that a task created and keeps, taken from the answer to its first request. A flow does
    not keep an empty one. -/
def Task.createdId? (t : Task) (answers : List (Wire × Answer)) : Option String :=
  match t, answers with
  | .action .createOrder, (_, a) :: _ => if isSuccess a.status then createdOrderId? a.data else none
  | .flow .order, (_, a) :: _ => if isSuccess a.status then Flow.usableOrderId? a.data else none
  | _, _ => none

def Drafts.withOrder (d : Drafts) : Option String → Drafts
  | some id => { d with orderId := id }
  | none => d

/-- The first request of a run created an order, and was answered. -/
def Created (c : Config) (exs : List (Wire × Reply)) : Prop :=
  ∃ base body a rest, c.baseUrl? .order = some base ∧ exs = (⟨.post, base ++ "/orders", body⟩, .answer a) :: rest

section Creating

variable {σ : Type} (c : Config) (w : World σ) (s : Store) (x : σ)

theorem Task.createdId?_nil (t : Task) : t.createdId? [] = none := by
  cases t with
  | action a => cases a <;> rfl
  | flow f => cases f <;> rfl
  | _ => rfl

theorem Action.drafts_createOrder :
    let exs := (createOrder.perform c).exchanges w s x
    ((createOrder.perform c).run w s x).2.1.state.drafts =
        s.state.drafts.withOrder ((Task.action .createOrder).createdId? (answered exs)) ∧
      (answered exs ≠ [] → Created c exs) := by
  intro exs
  rcases (createOrder.request s.state.drafts).execute_cases c w s x with
    ⟨e, x', hrun, hnone⟩ | ⟨base, a, m, x', hb, hrun, hex⟩
  · refine ⟨?_, fun h => absurd hnone h⟩
    rw [show answered exs = [] from hnone, Task.createdId?_nil, perform, Work.run, hrun]
    rfl
  · refine ⟨?_, fun _ => ⟨base, _, a, [], hb, hex⟩⟩
    rw [show exs = [(_, .answer a)] from hex, perform, Work.run, hrun]
    show _ = s.state.drafts.withOrder (if isSuccess a.status then createdOrderId? a.data else none)
    by_cases hok : isSuccess a.status = true
    · rw [Request.run_conclude_success hok, if_pos hok]
      show Hook.apply a.data s.state.drafts .captureOrderId = _
      rw [Hook.apply]
      cases createdOrderId? a.data <;> rfl
    · rw [Request.run_conclude_failure hok, if_neg hok]
      rfl

/-- What the order flow goes on with once its first request is answered. -/
def Flow.afterCreate (d : Drafts) (m : Moment) (created : Json) : Work (Except Fault FlowOutcome) :=
  match usableOrderId? created with
  | none => .done (.ok (.aborted createLabel))
  | some orderId =>
    .change [.drafts (.keepOrderId orderId)]
      ((executeAll c (orderRequests d m orderId)).onSuccess fun _ => .done (.ok (.completed 4 (some orderId))))

theorem Flow.runOrder_eq : runOrder c = .look fun s => .moment fun m =>
    ((createRequest s.drafts m).execute c).onSuccess (afterCreate c s.drafts m) := rfl

theorem Flow.drafts_afterCreate (d : Drafts) (m : Moment) (created : Json) :
    ((afterCreate c d m created).run w s x).2.1.state.drafts = s.state.drafts.withOrder (usableOrderId? created) := by
  rw [afterCreate]
  split
  · next h => rw [h]; rfl
  · next id h =>
    have hrest : (executeAll c (orderRequests d m id)).Changes Update.IsRecording :=
      changes_executeAll (fun _ h => h) c _ (by simp [orderRequests])
    have hkept := (hrest.onSuccess (f := fun _ => Work.done (Except.ok (FlowOutcome.completed 4 (some id)))) fun _ =>
      trivial).run_eq State.drafts (fun u s hu => hu.drafts_apply s) w (s.updateAll [.drafts (.keepOrderId id)]) x
    rw [h]
    exact hkept

theorem Flow.drafts_runOrder :
    let exs := (runOrder c).exchanges w s x
    ((runOrder c).run w s x).2.1.state.drafts =
        s.state.drafts.withOrder ((Task.flow .order).createdId? (answered exs)) ∧
      (answered exs ≠ [] → Created c exs) := by
  intro exs
  have hexs : exs = (((createRequest s.state.drafts (w.moment x).1).execute c).onSuccess
      (afterCreate c s.state.drafts (w.moment x).1)).exchanges w s (w.moment x).2 := rfl
  rw [hexs, runOrder_eq, Work.run, Work.run, Work.run_onSuccess, Work.exchanges_onSuccess]
  rcases (createRequest s.state.drafts (w.moment x).1).execute_cases c w s (w.moment x).2 with
    ⟨e, x', hrun, hnone⟩ | ⟨base, a, m, x', hb, hrun, hex⟩
  · rw [hrun]
    dsimp only
    rw [List.append_nil, hnone, Task.createdId?_nil]
    exact ⟨rfl, fun h => absurd rfl h⟩
  · refine ⟨?_, fun _ => ⟨base, _, a, _, hb, by rw [hex]; rfl⟩⟩
    rw [hrun, hex]
    show _ = s.state.drafts.withOrder (if isSuccess a.status then usableOrderId? a.data else none)
    by_cases hok : isSuccess a.status = true
    · rw [Request.run_conclude_success hok, if_pos hok]
      exact drafts_afterCreate c w _ x' _ _ _
    · rw [Request.run_conclude_failure hok, if_neg hok]
      rfl

theorem Task.createdId?_eq_none {t : Task} (hc : t ≠ .action .createOrder) (hf : t ≠ .flow .order)
    (answers : List (Wire × Answer)) : t.createdId? answers = none := by
  cases t with
  | action a =>
    cases a with
    | createOrder => exact absurd rfl hc
    | _ => rfl
  | flow f =>
    cases f with
    | order => exact absurd rfl hf
    | inventory => rfl
  | _ => rfl

theorem Task.drafts_work (p : Poller) (t : Task) :
    let exs := (t.work c p).exchanges w s x
    ((t.work c p).run w s x).2.1.state.drafts = s.state.drafts.withOrder (t.createdId? (answered exs)) ∧
      ∀ id, t.createdId? (answered exs) = some id → Created c exs := by
  intro exs
  have hsome {id : String} (h : t.createdId? (answered exs) = some id) : answered exs ≠ [] := fun hnil => by
    simp [hnil, createdId?_nil] at h
  by_cases hc : t = .action .createOrder
  · subst hc
    have hcreate := Action.drafts_createOrder c w s x
    simp only [exs, work, Work.run_onSuccess_done, Work.exchanges_onSuccess_done] at hsome ⊢
    exact ⟨hcreate.1, fun id hid => hcreate.2 (hsome hid)⟩
  · by_cases hf : t = .flow .order
    · subst hf
      have hflow := Flow.drafts_runOrder c w s x
      simp only [exs, work, Flow.run, Work.run_onSuccess_done, Work.exchanges_onSuccess_done] at hsome ⊢
      exact ⟨hflow.1, fun id hid => hflow.2 (hsome hid)⟩
    · rw [createdId?_eq_none hc hf]
      refine ⟨?_, fun id hid => by cases hid⟩
      exact (changes_work c p t).run_eq State.drafts (fun u s hu => hu.drafts_apply hc hf s) w s x

end Creating

/-! ### The frame of a task -/

/-- What a task that was run leaves of the store, given the requests that it sent and what came of them. -/
structure Framed (c : Config) (p : Poller) (t : Task) (s s' : Store) (exs : List (Wire × Reply)) : Prop where
  session : s'.state.session = s.state.session
  /-- No draft changes but the order id, and that only to the id of an order that the task created. -/
  drafts : s'.state.drafts = s.state.drafts.withOrder (t.createdId? (answered exs))
  created : ∀ id, t.createdId? (answered exs) = some id → Created c exs
  health : ∀ service, service ∉ t.checked → s'.state.health.get service = s.state.health.get service
  /-- The answers have an entry each, the last one first; a log that is not too long from the start is cut
      to its first hundred. -/
  history : ∃ es : List Entry, List.Forall₂ (Entry.Records c) es (answered exs).reverse ∧
    (answered exs ≠ [] ∨ s.state.history.entries.length ≤ 100 →
      s'.state.history.entries = (es ++ s.state.history.entries).take 100)
  unanswered : answered exs = [] → s'.state.history = s.state.history ∧ s'.state.result = s.state.result
  result : answered exs ≠ [] → ∃ e, s'.state.history.latest? = some e ∧ s'.state.result.title = e.label ∧
    s'.state.result.status = some e.status ∧ s'.state.result.durationMs = some e.durationMs
  /-- The result and the history are committed once for each answer, and the session never. -/
  commits : ∃ new : List Slice, s'.commits = new ++ s.commits ∧ new.count .session = 0 ∧
    new.count .result = (answered exs).length ∧ new.count .history = (answered exs).length
  dropped : ∀ ticket, t = .poll ticket → p.isCurrent ticket = false ∨ s.state.drafts.orderId = "" →
    exs = [] ∧ s' = s

theorem Logged.latest {c : Config} {s t : Store} {answers : List (Wire × Answer)} (h : Logged c s t answers)
    (hne : answers ≠ []) : ∃ e, t.state.history.latest? = some e ∧ t.state.result.Shows e := by
  obtain ⟨es, hes, hhist, hlast, -⟩ := h.entries
  induction es using List.reverseRecOn with
  | nil => exact absurd (List.forall₂_nil_left_iff.mp hes) hne
  | append_singleton es e ih =>
    exact ⟨e, by rw [hhist, History.latest?_foldl_record], hlast e (by simp)⟩

theorem poll_dropped {c : Config} {p : Poller} {ticket : Ticket} {σ : Type} (w : World σ) (s : Store) (x : σ)
    (h : p.isCurrent ticket = false ∨ s.state.drafts.orderId = "") :
    ((Task.poll ticket).work c p).exchanges w s x = [] ∧ (((Task.poll ticket).work c p).run w s x).2.1 = s := by
  rw [Task.work]
  split
  · next hcurrent =>
    have hempty : s.state.drafts.orderId = "" := h.resolve_left (by simp [hcurrent])
    have hnone : Request.poll? s.state.drafts.orderId = none := if_pos hempty
    rw [Work.exchanges_onSuccess, Work.run_onSuccess, pollOnce, Work.exchanges, Work.run, hnone]
    exact ⟨rfl, rfl⟩
  · exact ⟨rfl, rfl⟩

/-- Whatever task is run in whatever state, and whatever the world answers, the rest of the store is left. -/
theorem framed_run (c : Config) (p : Poller) (t : Task) {σ : Type} (w : World σ) (s : Store) (x : σ) :
    Framed c p t s ((t.work c p).run w s x).2.1 ((t.work c p).exchanges w s x) := by
  have hchanges := Task.changes_work c p t
  have hlogged := Task.logs_work c p t σ w s x
  have hdrafts := Task.drafts_work c w s x p t
  exact {
    session := hchanges.run_eq State.session (fun u s hu => hu.session_apply s) w s x
    drafts := hdrafts.1
    created := hdrafts.2
    health := fun service hs => hchanges.run_eq (·.health.get service) (fun u s hu => hu.health_apply hs s) w s x
    history := by
      obtain ⟨es, hes, hhist, -, -⟩ := hlogged.entries
      refine ⟨es.reverse, List.rel_reverse hes, fun hsmall => ?_⟩
      rw [hhist]
      exact History.foldl_record _ (hsmall.imp_left fun hne hnil => hne (List.forall₂_nil_left_iff.mp (hnil ▸ hes)))
    unanswered := fun hnone => by
      obtain ⟨es, hes, hhist, -, hsame⟩ := hlogged.entries
      obtain rfl := List.forall₂_nil_right_iff.mp (hnone ▸ hes)
      exact ⟨hhist, hsame rfl⟩
    result := hlogged.latest
    commits := hlogged.commits
    dropped := fun ticket ht h => by
      subst ht
      exact poll_dropped w s x h }

end TicketDesk
