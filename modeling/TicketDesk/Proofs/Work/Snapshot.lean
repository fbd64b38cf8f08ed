import TicketDesk.Proofs.Work.Course
import TicketDesk.Task

/-! # The snapshot of a task

A task reads the drafts in its first step and never again, so what its requests say of the drafts is what the
drafts were then. A check of a service reads them later too, but makes nothing of them. -/

namespace TicketDesk

/-- The same step, had the state been another one. -/
def Stage.inState (s : State) (st : Stage) : Stage := { st with state := s }

namespace Work

variable {α β : Type} {work : Work α}

/-! ### Programs that do not care for the state -/

/-- Whatever the state is, the program goes on in the same way. -/
def Blind : Work α → Prop
  | .done _ => True
  | .look next => (∀ s s', next s = next s') ∧ ∀ s, (next s).Blind
  | .change _ next => next.Blind
  | .send _ next => ∀ r, (next r).Blind
  | .moment next => ∀ m, (next m).Blind
  | .say _ next => next.Blind
  | .wait _ next => ∀ now, (next now).Blind

theorem Blind.bind {f : α → Work β} (h : work.Blind) (hf : ∀ a, (f a).Blind) : (work.bind f).Blind := by
  induction work with
  | done a => exact hf a
  | look next ih => exact ⟨fun s s' => congrArg (Work.bind f) (h.1 s s'), fun s => ih s (h.2 s)⟩
  | change us next ih => exact ih h
  | send wire next ih => exact fun r => ih r (h r)
  | moment next ih => exact fun m => ih m (h m)
  | say line next ih => exact ih h
  | wait millis next ih => exact fun now => ih now (h now)

theorem Blind.onSuccess {work : Work (Except Fault α)} {f : α → Work (Except Fault β)} (h : work.Blind)
    (hf : ∀ a, (f a).Blind) : (work.onSuccess f).Blind :=
  h.bind fun
    | .ok a => hf a
    | .error _ => trivial

theorem Blind.next (h : work.Blind) (st : Stage) : (work.next st).Blind := by
  cases work with
  | done a => trivial
  | look next => exact h.2 _
  | change us next => exact h
  | send wire next => exact h _
  | moment next => exact h _
  | say line next => exact h
  | wait millis next => exact h _

theorem Blind.next_inState (h : work.Blind) (s : State) (st : Stage) : work.next (st.inState s) = work.next st := by
  cases work with
  | look next => exact h.1 _ _
  | _ => rfl

theorem Blind.sentAlong_inState (h : work.Blind) (s : State) (sts : List Stage) :
    work.sentAlong (sts.map (·.inState s)) = work.sentAlong sts := by
  induction sts generalizing work with
  | nil => rfl
  | cons st sts ih => rw [List.map_cons, sentAlong, sentAlong, h.next_inState, ih (h.next st)]

/-! ### Programs that take a snapshot -/

/-- Of the states that a program finds, only the drafts at its first step make a difference. -/
structure Snaps (work : Work α) : Prop where
  first : ∀ (s : State) (st : Stage), s.drafts = st.state.drafts → work.next (st.inState s) = work.next st
  rest : ∀ st, (work.next st).Blind

theorem Blind.snaps (h : work.Blind) : work.Snaps := ⟨fun s st _ => h.next_inState s st, h.next⟩

theorem snaps_look {next : State → Work α} (hs : ∀ s s', s.drafts = s'.drafts → next s = next s')
    (h : ∀ s, (next s).Blind) : (Work.look next).Snaps :=
  ⟨fun s st => hs s st.state, fun st => h st.state⟩

/-- To make something of the result afterwards is to take no second look. -/
theorem Snaps.onSuccess {next : State → Work (Except Fault α)} {f : α → Work (Except Fault β)}
    (h : (Work.look next).Snaps) (hf : ∀ a, (f a).Blind) : ((Work.look next).onSuccess f).Snaps where
  first s st hs := congrArg (Work.onSuccess · f) (h.first s st hs)
  rest st := (h.rest st).onSuccess hf

theorem Snaps.sentAlong_inState (h : work.Snaps) (s : State) (sts : List Stage)
    (hs : ∀ st, sts.head? = some st → s.drafts = st.state.drafts) :
    work.sentAlong (sts.map (·.inState s)) = work.sentAlong sts := by
  cases sts with
  | nil => rfl
  | cons st sts =>
    rw [List.map_cons, sentAlong, sentAlong, h.first s st (hs st rfl), (h.rest st).sentAlong_inState]

end Work

/-! ### Requests and flows -/

theorem Request.blind_execute (c : Config) (r : Request) : (r.execute c).Blind := by
  have hconclude (a : Answer) : (r.conclude a).Blind := by
    rw [conclude]
    split
    · split <;> trivial
    · trivial
  rw [execute]
  split
  · trivial
  · exact fun
      | .unreachable detail => trivial
      | .answer a => fun _ => hconclude a

/-- A check of a service makes nothing of the drafts. -/
theorem Service.blind_check (c : Config) (service : Service) : (service.check c).Blind := by
  have hperform : ((Action.healthz service).perform c).Blind :=
    ⟨fun _ _ => rfl, fun s => Request.blind_execute c ((Action.healthz service).request s.drafts)⟩
  exact hperform.bind fun _ => trivial

theorem Board.blind_checkAll (c : Config) (services : List Service) (board : Board) :
    (checkAll c services board).Blind := by
  induction services generalizing board with
  | nil => trivial
  | cons service rest ih => exact (service.blind_check c).bind fun health => ih (board.set service health)

theorem Flow.blind_executeAll (c : Config) (rs : List Request) : (executeAll c rs).Blind := by
  induction rs with
  | nil => trivial
  | cons r rest ih => exact (r.blind_execute c).onSuccess fun _ => ih

theorem Flow.snaps_run (c : Config) (f : Flow) : (f.run c).Snaps := by
  cases f with
  | order =>
    refine Work.snaps_look (fun s s' hs => ?_) fun s m => ?_
    · rw [hs]
    · refine ((createRequest s.drafts m).blind_execute c).onSuccess fun created => ?_
      split
      · trivial
      · exact (blind_executeAll c _).onSuccess fun _ => trivial
  | inventory =>
    refine Work.snaps_look (fun s s' hs => ?_) fun s => ?_
    · rw [hs]
    · exact (blind_executeAll c (holdRequests s.drafts)).onSuccess fun _ => trivial

theorem snaps_pollOnce (c : Config) : (pollOnce c).Snaps := by
  refine Work.snaps_look (fun s s' hs => ?_) fun s => ?_
  · rw [hs]
  · split
    · exact (Request.blind_execute c _).onSuccess fun _ => trivial
    · trivial

/-! ### Tasks -/

/-- Whatever a task sends, the drafts in it are those at its first step. -/
theorem Task.snaps_work (c : Config) (p : Poller) (t : Task) : (t.work c p).Snaps := by
  cases t with
  | action a =>
    have hperform : (a.perform c).Snaps :=
      Work.snaps_look (fun s s' hs => by rw [hs]) fun s => (a.request s.drafts).blind_execute c
    rw [work]
    exact hperform.onSuccess fun _ => trivial
  | replay e =>
    have hblind : ((Task.replay e).work c p).Blind := (e.replay.blind_execute c).onSuccess fun _ => trivial
    exact hblind.snaps
  | flow f =>
    rw [work]
    cases f with
    | order => exact (Flow.order.snaps_run c).onSuccess fun _ => trivial
    | inventory => exact (Flow.inventory.snaps_run c).onSuccess fun _ => trivial
  | check service =>
    have hblind : ((Task.check service).work c p).Blind := (service.blind_check c).bind fun _ => trivial
    exact hblind.snaps
  | sweep =>
    have hblind : (Task.sweep.work c p).Blind := (Board.blind_checkAll c Service.all .initial).bind fun _ => trivial
    exact hblind.snaps
  | poll ticket =>
    rw [work]
    split
    · refine (snaps_pollOnce c).onSuccess fun data => ?_
      split <;> trivial
    · exact Work.Blind.snaps trivial

end TicketDesk
