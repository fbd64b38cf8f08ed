import TicketDesk.Task

/-! # What background work may do

Two bounds on a program hold whatever the world answers: which updates it makes, and how many requests
it sends. Both go through the sequence of two programs. The tasks of the worker neither log in or out nor
clear the history, and a poll sends one request at most. -/

namespace TicketDesk

namespace Work

variable {α β : Type} {P : Update → Prop}

/-! ### Updates -/

/-- Whatever the world answers, every update that a program makes is of a kind. -/
def Changes (P : Update → Prop) : Work α → Prop
  | .done _ => True
  | .look next => ∀ s, (next s).Changes P
  | .change us next => (∀ u ∈ us, P u) ∧ next.Changes P
  | .send _ next => ∀ r, (next r).Changes P
  | .moment next => ∀ m, (next m).Changes P
  | .say _ next => next.Changes P
  | .wait _ next => ∀ now, (next now).Changes P

theorem Changes.bind {work : Work α} {f : α → Work β} (h : work.Changes P) (hf : ∀ a, (f a).Changes P) :
    (work.bind f).Changes P := by
  induction work with
  | done a => exact hf a
  | look next ih => exact fun s => ih s (h s)
  | change us next ih => exact ⟨h.1, ih h.2⟩
  | send wire next ih => exact fun r => ih r (h r)
  | moment next ih => exact fun m => ih m (h m)
  | say line next ih => exact ih h
  | wait millis next ih => exact fun now => ih now (h now)

theorem Changes.onSuccess {work : Work (Except Fault α)} {f : α → Work (Except Fault β)} (h : work.Changes P)
    (hf : ∀ a, (f a).Changes P) : (work.onSuccess f).Changes P :=
  h.bind fun
    | .ok a => hf a
    | .error _ => trivial

theorem Changes.mono {Q : Update → Prop} {work : Work α} (h : work.Changes P) (hPQ : ∀ u, P u → Q u) :
    work.Changes Q := by
  induction work with
  | done a => trivial
  | look next ih => exact fun s => ih s (h s)
  | change us next ih => exact ⟨fun u hu => hPQ u (h.1 u hu), ih h.2⟩
  | send wire next ih => exact fun r => ih r (h r)
  | moment next ih => exact fun m => ih m (h m)
  | say line next ih => exact ih h
  | wait millis next ih => exact fun now => ih now (h now)

/-- What every update of the kind leaves as it is, a run of the program leaves as it is. -/
theorem Changes.run_eq {σ ρ : Type} {work : Work α} (h : work.Changes P) (view : State → ρ)
    (hview : ∀ u s, P u → view (u.apply s) = view s) (w : World σ) (s : Store) (x : σ) :
    view (work.run w s x).2.1.state = view s.state := by
  have hall : ∀ (us : List Update) (s : Store), (∀ u ∈ us, P u) → view (s.updateAll us).state = view s.state := by
    intro us
    induction us with
    | nil => exact fun _ _ => rfl
    | cons u us ih =>
      intro s hus
      rw [List.forall_mem_cons] at hus
      exact (ih (s.update u) hus.2).trans (hview u s.state hus.1)
  induction work generalizing s x with
  | done a => rfl
  | look next ih => exact ih _ (h _) _ _
  | change us next ih => exact (ih h.2 _ _).trans (hall us s h.1)
  | send wire next ih => exact ih _ (h _) _ _
  | moment next ih => exact ih _ (h _) _ _
  | say line next ih => exact ih h _ _
  | wait millis next ih => exact ih _ (h _) _ _

/-- A program that makes no update leaves the store. -/
theorem Changes.store_run {σ : Type} {work : Work α} (h : work.Changes fun _ => False) (w : World σ) (s : Store) (x : σ) :
    (work.run w s x).2.1 = s := by
  induction work generalizing s x with
  | done a => rfl
  | look next ih => exact ih _ (h _) _ _
  | change us next ih =>
    obtain rfl : us = [] := List.eq_nil_iff_forall_not_mem.mpr h.1
    exact ih h.2 _ _
  | send wire next ih => exact ih _ (h _) _ _
  | moment next ih => exact ih _ (h _) _ _
  | say line next ih => exact ih h _ _
  | wait millis next ih => exact ih _ (h _) _ _

/-- A step makes updates of the kind, if any, and the rest of the program is bounded as before. -/
theorem Changes.step {σ : Type} {work : Work α} (h : work.Changes P) (w : World σ) (s : Store) (x : σ) :
    (work.step w s x).1.Changes P ∧ ∃ us : List Update, (∀ u ∈ us, P u) ∧ (work.step w s x).2.1 = s.updateAll us := by
  have hnone : ∃ us : List Update, (∀ u ∈ us, P u) ∧ s = s.updateAll us := ⟨[], by simp, rfl⟩
  cases work with
  | done a => exact ⟨h, hnone⟩
  | look next => exact ⟨h s.state, hnone⟩
  | change us next => exact ⟨h.2, us, h.1, rfl⟩
  | send wire next => exact ⟨h _, hnone⟩
  | moment next => exact ⟨h _, hnone⟩
  | say line next => exact ⟨h, hnone⟩
  | wait millis next => exact ⟨h _, hnone⟩

/-! ### Requests -/

/-- Whatever the world answers, a program sends at most so many requests. -/
def SendsAtMost : Nat → Work α → Prop
  | _, .done _ => True
  | n, .look next => ∀ s, (next s).SendsAtMost n
  | n, .change _ next => next.SendsAtMost n
  | n, .send _ next => ∃ k, n = k + 1 ∧ ∀ r, (next r).SendsAtMost k
  | n, .moment next => ∀ m, (next m).SendsAtMost n
  | n, .say _ next => next.SendsAtMost n
  | n, .wait _ next => ∀ now, (next now).SendsAtMost n

variable {n k : Nat}

theorem SendsAtMost.mono {work : Work α} (h : work.SendsAtMost n) (hle : n ≤ k) : work.SendsAtMost k := by
  induction work generalizing n k with
  | done a => trivial
  | look next ih => exact fun s => ih s (h s) hle
  | change us next ih => exact ih h hle
  | send wire next ih =>
    obtain ⟨m, rfl, h⟩ := h
    exact ⟨k - 1, by omega, fun r => ih r (h r) (by omega)⟩
  | moment next ih => exact fun m => ih m (h m) hle
  | say line next ih => exact ih h hle
  | wait millis next ih => exact fun now => ih now (h now) hle

theorem SendsAtMost.bind {work : Work α} {f : α → Work β} (h : work.SendsAtMost n)
    (hf : ∀ a, (f a).SendsAtMost k) : (work.bind f).SendsAtMost (n + k) := by
  induction work generalizing n with
  | done a => exact (hf a).mono (Nat.le_add_left k n)
  | look next ih => exact fun s => ih s (h s)
  | change us next ih => exact ih h
  | send wire next ih =>
    obtain ⟨m, rfl, h⟩ := h
    exact ⟨m + k, by omega, fun r => ih r (h r)⟩
  | moment next ih => exact fun m => ih m (h m)
  | say line next ih => exact ih h
  | wait millis next ih => exact fun now => ih now (h now)

theorem SendsAtMost.onSuccess {work : Work (Except Fault α)} {f : α → Work (Except Fault β)}
    (h : work.SendsAtMost n) (hf : ∀ a, (f a).SendsAtMost k) : (work.onSuccess f).SendsAtMost (n + k) :=
  h.bind fun
    | .ok a => hf a
    | .error _ => trivial

/-- A step that sends uses up one request, and any other step none. -/
theorem SendsAtMost.step {σ : Type} {work : Work α} (h : work.SendsAtMost n) (w : World σ) (s : Store) (x : σ) :
    (work.step w s x).1.SendsAtMost n ∧
      ∀ wire next, work = .send wire next → ∃ k, n = k + 1 ∧ (work.step w s x).1.SendsAtMost k := by
  cases work with
  | send wire next =>
    obtain ⟨m, rfl, h⟩ := h
    exact ⟨(h _).mono (Nat.le_succ m), fun _ _ _ => ⟨m, rfl, h _⟩⟩
  | look next => exact ⟨h _, fun _ _ he => by cases he⟩
  | moment next => exact ⟨h _, fun _ _ he => by cases he⟩
  | wait millis next => exact ⟨h _, fun _ _ he => by cases he⟩
  | _ => exact ⟨h, fun _ _ he => by cases he⟩

end Work

/-! ### Requests and flows -/

/-- The updates that are left to background work. -/
def Update.IsBackground : Update → Prop
  | .session _ => False
  | .clearHistory => False
  | _ => True

/-- The updates that record an answer. -/
def Update.IsRecording : Update → Prop
  | .result _ => True
  | .record _ => True
  | _ => False

theorem Update.IsRecording.drafts_apply {u : Update} (h : u.IsRecording) (s : State) : (u.apply s).drafts = s.drafts := by
  cases u with
  | drafts edit => cases h
  | _ => rfl

open Work

theorem Request.sendsAtMost_execute (c : Config) (r : Request) : (r.execute c).SendsAtMost 1 := by
  rw [execute]
  split
  · trivial
  · refine ⟨0, rfl, fun
      | .unreachable detail => trivial
      | .answer a => fun m => ?_⟩
    show (r.conclude a).SendsAtMost 0
    rw [conclude]
    split
    · split <;> trivial
    · trivial

section Recording

variable {P : Update → Prop} (hrec : ∀ u : Update, u.IsRecording → P u) (c : Config)
include hrec

theorem Request.changes_execute (r : Request)
    (hhook : ∀ hook data, r.hook = some hook → P (.drafts (.capture hook data))) : (r.execute c).Changes P := by
  have hconclude (a : Answer) : (r.conclude a).Changes P := by
    rw [conclude]
    split
    · split
      · next hook hsome => exact ⟨by simpa using hhook hook a.data hsome, trivial⟩
      · trivial
    · trivial
  have hsettle (a : Answer) : (r.settle a).Changes P := by
    intro m
    refine ⟨?_, hconclude a⟩
    rw [List.forall_mem_cons, List.forall_mem_singleton]
    exact ⟨hrec _ trivial, hrec _ trivial⟩
  rw [execute]
  split
  · trivial
  · exact fun
      | .unreachable detail => trivial
      | .answer a => hsettle a

theorem Action.changes_perform (a : Action) (hhook : a = .createOrder → ∀ hook data, P (.drafts (.capture hook data))) :
    (a.perform c).Changes P := by
  refine fun s => (a.request s.drafts).changes_execute hrec c fun hook data hsome => ?_
  cases a with
  | createOrder => exact hhook rfl hook data
  | _ => cases hsome

theorem Service.changes_check (service : Service) (hhealth : ∀ health, P (.health service health)) :
    (service.check c).Changes P :=
  ((Action.healthz service).changes_perform hrec c fun h => by cases h).bind fun _ =>
    ⟨by simpa using hhealth _, trivial⟩

theorem Board.changes_checkAll (services : List Service) (board : Board)
    (hhealth : ∀ service ∈ services, ∀ health, P (.health service health)) : (checkAll c services board).Changes P := by
  induction services generalizing board with
  | nil => trivial
  | cons service rest ih =>
    rw [List.forall_mem_cons] at hhealth
    exact (service.changes_check hrec c hhealth.1).bind fun health => ih (board.set service health) hhealth.2

theorem Flow.changes_executeAll (rs : List Request) (hnone : ∀ r ∈ rs, r.hook = none) :
    (executeAll c rs).Changes P := by
  induction rs with
  | nil => trivial
  | cons r rest ih =>
    rw [List.forall_mem_cons] at hnone
    exact (r.changes_execute hrec c fun _ _ h => by simp [hnone.1] at h).onSuccess fun _ => ih hnone.2

theorem Flow.changes_run (f : Flow) (hkeep : f = .order → ∀ id, P (.drafts (.keepOrderId id))) :
    (f.run c).Changes P := by
  cases f with
  | order =>
    intro s m
    refine ((createRequest s.drafts m).changes_execute hrec c fun _ _ h => by cases h).onSuccess fun created => ?_
    split
    · trivial
    · next id hid =>
      refine ⟨by simpa using hkeep rfl id, (changes_executeAll hrec c _ ?_).onSuccess fun _ => trivial⟩
      simp [orderRequests]
  | inventory => exact fun s => (changes_executeAll hrec c _ (by simp [holdRequests])).onSuccess fun _ => trivial

theorem changes_pollOnce : (pollOnce c).Changes P := by
  intro s
  dsimp only
  split
  · next r hr =>
    have hhook : r.hook = none := by
      rw [Request.poll?] at hr
      split at hr
      · cases hr
      · rw [← Option.some.inj hr]
    exact (r.changes_execute hrec c fun _ _ h => by simp [hhook] at h).onSuccess fun _ => trivial
  · trivial

end Recording

/-! ### Tasks -/

theorem sendsAtMost_pollOnce (c : Config) : (pollOnce c).SendsAtMost 1 := by
  intro s
  dsimp only
  split
  · exact SendsAtMost.onSuccess (k := 0) (Request.sendsAtMost_execute c _) fun _ => trivial
  · trivial

namespace Task

def isPoll : Task → Bool
  | .poll _ => true
  | _ => false

/-- The services whose health a task notes. -/
def checked : Task → List Service
  | .check service => [service]
  | .sweep => Service.all
  | _ => []

/-- The updates that a task may make: it records answers, keeps the id of the order that it creates, and
    notes the health of what it checks. -/
def MayMake (t : Task) : Update → Prop
  | .result _ => True
  | .record _ => True
  | .drafts (.capture _ _) => t = .action .createOrder
  | .drafts (.keepOrderId _) => t = .flow .order
  | .health service _ => service ∈ t.checked
  | _ => False

theorem mayMake_of_isRecording {t : Task} {u : Update} (h : u.IsRecording) : t.MayMake u := by
  cases u with
  | result r => trivial
  | record e => trivial
  | _ => cases h

theorem MayMake.isBackground {t : Task} {u : Update} (h : t.MayMake u) : u.IsBackground := by
  cases u with
  | session x => cases h
  | clearHistory => cases h
  | _ => trivial

theorem MayMake.session_apply {t : Task} {u : Update} (h : t.MayMake u) (s : State) : (u.apply s).session = s.session := by
  cases u with
  | session x => cases h
  | _ => rfl

theorem MayMake.health_apply {t : Task} {u : Update} (h : t.MayMake u) {service : Service} (hs : service ∉ t.checked)
    (s : State) : (u.apply s).health.get service = s.health.get service := by
  cases u with
  | health checked health =>
    have hne : service ≠ checked := fun he => hs (he ▸ h)
    exact if_neg hne
  | _ => rfl

/-- Only a task that creates an order changes the drafts. -/
theorem MayMake.drafts_apply {t : Task} {u : Update} (h : t.MayMake u) (hc : t ≠ .action .createOrder)
    (hf : t ≠ .flow .order) (s : State) : (u.apply s).drafts = s.drafts := by
  cases u with
  | drafts edit =>
    cases edit with
    | capture hook data => exact absurd h hc
    | keepOrderId id => exact absurd h hf
    | set values => cases h
    | useCurrentOrderId => cases h
  | _ => rfl

theorem changes_work (c : Config) (p : Poller) (t : Task) : (t.work c p).Changes t.MayMake := by
  have hrec (u : Update) : u.IsRecording → t.MayMake u := mayMake_of_isRecording
  cases t with
  | action a => exact (a.changes_perform hrec c fun h _ _ => congrArg Task.action h).onSuccess fun _ => trivial
  | replay e => exact (e.replay.changes_execute hrec c fun _ _ h => by cases h).onSuccess fun _ => trivial
  | flow f => exact (f.changes_run hrec c fun h _ => congrArg Task.flow h).onSuccess fun _ => trivial
  | check service => exact (service.changes_check hrec c fun _ => List.mem_singleton_self _).bind fun _ => trivial
  | sweep => exact (Board.changes_checkAll hrec c Service.all .initial fun _ hs _ => hs).bind fun _ => trivial
  | poll ticket =>
    rw [work]
    split
    · refine (changes_pollOnce hrec c).onSuccess fun data => ?_
      split <;> trivial
    · trivial

/-- A poll sends one request at most, and none with a stale ticket. -/
theorem sendsAtMost_work (c : Config) (p : Poller) (ticket : Ticket) :
    ((Task.poll ticket).work c p).SendsAtMost (if p.isCurrent ticket then 1 else 0) := by
  rw [work]
  split
  · refine SendsAtMost.onSuccess (k := 0) (sendsAtMost_pollOnce c) fun data => ?_
    split <;> trivial
  · trivial

/-- The reports of polls, and no others, bear the label of polls. -/
theorem describe_eq_pollLabel (t : Task) : t.describe = Request.pollLabel ↔ t.isPoll = true := by
  cases t with
  | action a =>
    cases a with
    | healthz service => cases service <;> decide
    | _ => decide
  | replay e =>
    refine ⟨fun h => ?_, fun h => by cases h⟩
    -- The two texts differ in the first character already.
    have hchars : ("Replay " ++ e.label).toList = Request.pollLabel.toList := congrArg String.toList h
    simp [Request.pollLabel] at hchars
  | flow f => cases f <;> decide
  | check service => cases service <;> decide
  | sweep => decide
  | poll ticket => exact ⟨fun _ => rfl, fun _ => rfl⟩

end Task

end TicketDesk
