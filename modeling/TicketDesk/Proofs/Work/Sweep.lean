import TicketDesk.Proofs.Work.Frame
import TicketDesk.Proofs.Work.Replies
import TicketDesk.Task

/-! # What a sweep finds

A sweep asks every service that has a base URL once, in order, and takes a service for ready when it was asked and
answered with 2xx. What it finds of a service is noted on two boards, the one it returns and that of the store. Since
it notes every service, the second board is the first one in the end, whatever stood on it before. -/

namespace TicketDesk

open Work (answered)

/-! ### Boards -/

namespace Board

variable {b : Board} {services : List Service}

theorem ext_get {b' : Board} (h : ∀ service, b.get service = b'.get service) : b = b' :=
  congrArg mk (funext h)

theorem overall_eq_allReady_iff : b.overall = .allReady ↔ ∀ service, b.get service = .ready := by
  have hall : (b.toList.all fun entry => entry.2 == .ready) = true ↔ ∀ service, b.get service = .ready := by
    simp only [toList, List.all_map, List.all_eq_true, Function.comp_apply, beq_iff_eq]
    exact ⟨fun h service => h service (Service.mem_all service), fun h service _ => h service⟩
  rw [overall, ← hall]
  split
  · next h => exact iff_of_true rfl h
  · next h =>
    refine iff_of_false ?_ h
    split <;> exact fun he => by cases he

theorem overall_eq_hasDown_iff : b.overall = .hasDown ↔ ∃ service, b.get service = .down := by
  have hany : (b.toList.any fun entry => entry.2 == .down) = true ↔ ∃ service, b.get service = .down := by
    simp only [toList, List.any_map, List.any_eq_true, Function.comp_apply, beq_iff_eq]
    exact ⟨fun ⟨service, _, h⟩ => ⟨service, h⟩, fun ⟨service, h⟩ => ⟨service, Service.mem_all service, h⟩⟩
  by_cases hready : b.overall = .allReady
  · refine iff_of_false (by simp [hready]) ?_
    rintro ⟨service, hdown⟩
    have := overall_eq_allReady_iff.mp hready service
    simp [hdown] at this
  · have hall : ¬(b.toList.all fun entry => entry.2 == .ready) = true := fun h => hready (by rw [overall, if_pos h])
    rw [overall, if_neg hall, ← hany]
    split
    · next h => exact iff_of_true rfl h
    · next h => exact iff_of_false (fun he => by cases he) h

/-- A board with one more note. -/
def noting (b : Board) (note : Service × Health) : Board := b.set note.1 note.2

theorem get_foldl_noting (f : Service → Health) (services : List Service) (b : Board) (service : Service) :
    ((services.map fun s => (s, f s)).foldl noting b).get service = if service ∈ services then f service else b.get service := by
  induction services generalizing b with
  | nil => simp
  | cons first rest ih =>
    rw [List.map_cons, List.foldl_cons, ih]
    by_cases hrest : service ∈ rest
    · simp [hrest]
    · by_cases hfirst : service = first <;> simp [hrest, hfirst, noting, set]

end Board

/-! ### Notes -/

/-- What an update notes of a service. -/
def Update.note? : Update → Option (Service × Health)
  | .health service h => some (service, h)
  | _ => none

theorem Store.health_updateAll (s : Store) (us : List Update) :
    (s.updateAll us).state.health = (us.filterMap Update.note?).foldl Board.noting s.state.health := by
  induction us generalizing s with
  | nil => rfl
  | cons u us ih =>
    refine (ih (s.update u)).trans ?_
    cases u <;> rfl

namespace Course

variable {σ α β : Type}

/-- The updates of a course, whoever made them. -/
def updates (c : Course σ α) : List Update := c.deeds.flatMap Deed.updates

def notes (c : Course σ α) : List (Service × Health) := c.updates.filterMap Update.note?

theorem exchanges_followed (c : Course σ α) (rest : α → Store → σ → Course σ β) :
    (c.followed rest).exchanges = c.exchanges ++ (rest c.result c.store c.world).exchanges := by
  rw [exchanges, acts_followed, List.filterMap_append]
  rfl

theorem notes_followed (c : Course σ α) (rest : α → Store → σ → Course σ β) :
    (c.followed rest).notes = c.notes ++ (rest c.result c.store c.world).notes := by
  rw [notes, updates, followed, preceded, List.flatMap_append, List.filterMap_append]
  rfl

end Course

namespace Work

variable {σ α : Type}

/-- Others that leave everything alone. -/
def nobody : Others σ := fun x => ([], x)

/-- A program that notes nothing of any service has no notes when nobody else is there. -/
theorem Changes.notes_eq_nil {P : Update → Prop} {work : Work α} (h : work.Changes P) (hP : ∀ u, P u → u.note? = none)
    (w : World σ) (s : Store) (x : σ) : (work.amid w nobody s x).notes = [] := by
  induction work generalizing s x with
  | done a => rfl
  | look next ih => exact ih _ (h _) _ _
  | change us next ih =>
    have hus : us.filterMap Update.note? = [] := List.filterMap_eq_nil_iff.mpr fun u hu => hP u (h.1 u hu)
    show (us ++ ([] ++ (next.amid w nobody (s.updateAll us) x).updates)).filterMap Update.note? = []
    rw [List.filterMap_append, hus]
    exact ih h.2 _ _
  | send wire next ih => exact ih _ (h _) _ _
  | moment next ih => exact ih _ (h _) _ _
  | say line next ih => exact ih h _ _
  | wait millis next ih => exact ih _ (h _) _ _

end Work

/-! ### One service -/

/-- What a check makes of a reply, or of none. -/
def Health.found : Option Reply → Health
  | some reply => match reply.outcome with
    | .ok _ => .ready
    | .error _ => .down
  | none => .down

theorem Health.found_eq_ready_iff {reply? : Option Reply} :
    found reply? = .ready ↔ ∃ reply, reply? = some reply ∧ reply.Succeeds := by
  cases reply? with
  | none => simp [found]
  | some reply =>
    cases houtcome : reply.outcome with
    | ok data => simp [found, houtcome, Reply.succeeds_of_outcome houtcome]
    | error e => simp [found, houtcome, Reply.not_succeeds_of_outcome houtcome]

theorem Health.found_eq_down_iff {reply? : Option Reply} :
    found reply? = .down ↔ ¬∃ reply, reply? = some reply ∧ reply.Succeeds := by
  rw [← found_eq_ready_iff]
  cases reply? with
  | none => simp [found]
  | some reply => cases houtcome : reply.outcome <;> simp [found, houtcome]

/-- The request of a check with what came of it, if the service has a base URL. -/
def Service.probe (c : Config) (service : Service) (reply? : Option Reply) : Option (Wire × Reply) :=
  (c.baseUrl? service).bind fun base => reply?.map fun reply => (⟨.get, base ++ "/healthz", none⟩, reply)

section

variable {σ : Type} (c : Config) (w : World σ) (s : Store) (x : σ)

/-- The request of a check goes out when there is a base URL, and notes nothing yet. -/
theorem Service.course_perform (service : Service) :
    let course := ((Action.healthz service).perform c).amid w Work.nobody s x
    ∃ reply? : Option Reply, (reply?.isSome ↔ (c.baseUrl? service).isSome) ∧
      course.exchanges = (service.probe c reply?).toList ∧ course.notes = [] ∧
      (match course.result with | .ok _ => Health.ready | .error _ => Health.down) = Health.found reply? := by
  intro course
  have hnotes : course.notes = [] :=
    ((Action.healthz service).changes_perform (P := Update.IsRecording) (fun _ h => h) c fun h => by cases h).notes_eq_nil
      (fun u hu => by cases u <;> trivial) w s x
  let r := (Action.healthz service).request s.state.drafts
  have hexs : course.exchanges = ((r.execute c).amid w Work.nobody s x).exchanges := rfl
  have hresult : course.result = ((r.execute c).amid w Work.nobody s x).result := rfl
  cases hb : c.baseUrl? service with
  | none =>
    have hdone : r.execute c = .done (.error (.noBaseUrl service)) := r.execute_of_no_base hb
    refine ⟨none, by simp, ?_, hnotes, ?_⟩
    · rw [hexs, hdone, probe, hb]
      rfl
    · rw [hresult, hdone]
      rfl
  | some base =>
    obtain ⟨reply, hacts, hreply⟩ := Request.course_execute w Work.nobody s x (r := r) rfl hb
    refine ⟨some reply, by simp, ?_, hnotes, ?_⟩
    · rw [hexs, Course.exchanges, hacts, probe, hb]
      rfl
    · rw [hresult, hreply]
      rfl

theorem Service.course_check (service : Service) :
    let course := (service.check c).amid w Work.nobody s x
    ∃ reply? : Option Reply, (reply?.isSome ↔ (c.baseUrl? service).isSome) ∧
      course.exchanges = (service.probe c reply?).toList ∧ course.notes = [(service, Health.found reply?)] ∧
      course.result = Health.found reply? := by
  intro course
  obtain ⟨reply?, hasked, hexs, hnotes, hfound⟩ := service.course_perform c w s x
  have hcourse : course = _ := congrFun (congrFun (Work.amid_bind _ ((Action.healthz service).perform c)) s) x
  refine ⟨reply?, hasked, ?_, ?_, ?_⟩
  · rw [hcourse, Course.exchanges_followed, hexs]
    exact List.append_nil _
  · rw [hcourse, Course.notes_followed, hnotes, ← hfound]
    rfl
  · rw [hcourse, ← hfound]
    rfl

/-! ### All services -/

/-- Services are checked in turn, each on its own, and all that is found is put on the board. -/
theorem Board.course_checkAll {services : List Service} (hnodup : services.Nodup) (board : Board) :
    let course := (checkAll c services board).amid w Work.nobody s x
    ∃ replies : Service → Option Reply, (∀ service ∈ services, (replies service).isSome ↔ (c.baseUrl? service).isSome) ∧
      course.exchanges = services.filterMap (fun service => service.probe c (replies service)) ∧
      course.notes = services.map (fun service => (service, Health.found (replies service))) ∧
      course.result = course.notes.foldl noting board := by
  induction services generalizing board s x with
  | nil => exact ⟨fun _ => none, by simp, rfl, rfl, rfl⟩
  | cons service rest ih =>
    intro course
    obtain ⟨hnew, hrest⟩ := List.nodup_cons.mp hnodup
    obtain ⟨reply?, hasked, hexs, hnotes, hresult⟩ := service.course_check c w s x
    let checked := (service.check c).amid w Work.nobody s x
    obtain ⟨replies, hasked', hexs', hnotes', hresult'⟩ :=
      ih checked.store checked.world hrest (board.set service checked.result)
    have hcourse : course = checked.followed fun health => (checkAll c rest (board.set service health)).amid w Work.nobody :=
      congrFun (congrFun (Work.amid_bind _ (service.check c)) s) x
    -- What comes of the first check does not matter for the others, which are of other services.
    have hother {other : Service} (h : other ∈ rest) : Function.update replies service reply? other = replies other :=
      Function.update_of_ne (ne_of_mem_of_not_mem h hnew) _ _
    refine ⟨Function.update replies service reply?, ?_, ?_, ?_, ?_⟩
    · rw [List.forall_mem_cons, Function.update_self]
      refine ⟨hasked, fun other h => ?_⟩
      rw [hother h]
      exact hasked' other h
    · have hsame : rest.filterMap (fun other => other.probe c (Function.update replies service reply? other)) =
          rest.filterMap fun other => other.probe c (replies other) :=
        List.filterMap_congr fun other h => by rw [hother h]
      rw [hcourse, Course.exchanges_followed, hexs, hexs', List.filterMap_cons, Function.update_self, hsame]
      cases service.probe c reply? <;> rfl
    · have hsame : rest.map (fun other => (other, Health.found (Function.update replies service reply? other))) =
          rest.map fun other => (other, Health.found (replies other)) :=
        List.map_congr_left fun other h => by rw [hother h]
      rw [hcourse, Course.notes_followed, hnotes, hnotes', List.map_cons, Function.update_self, hsame]
      rfl
    · rw [hcourse, Course.notes_followed, hnotes, List.singleton_append, List.foldl_cons, ← hresult]
      exact hresult'

end

section

variable {σ : Type} (c : Config) (w : World σ) (s : Store) (x : σ)

theorem Board.course_sweep :
    let course := (sweep c).amid w Work.nobody s x
    ∃ replies : Service → Option Reply, (∀ service, (replies service).isSome ↔ (c.baseUrl? service).isSome) ∧
      course.exchanges = Service.all.filterMap (fun service => service.probe c (replies service)) ∧
      course.notes = Service.all.map (fun service => (service, course.result.get service)) ∧
      ∀ service, course.result.get service = Health.found (replies service) := by
  intro course
  obtain ⟨replies, hasked, hexs, hnotes, hresult⟩ := course_checkAll c w s x (show Service.all.Nodup by decide) .initial
  have hget (service : Service) : course.result.get service = Health.found (replies service) := by
    rw [show course.result = _ from hresult, hnotes, get_foldl_noting, if_pos (Service.mem_all service)]
  refine ⟨replies, fun service => hasked service (Service.mem_all service), hexs, ?_, hget⟩
  rw [show course.notes = _ from hnotes]
  exact List.map_congr_left fun service _ => by rw [hget]

/-- The board of the store ends up as the board of a sweep: all that stood on it has been noted anew. -/
theorem Board.health_sweep :
    let course := (sweep c).amid w Work.nobody s x
    course.store.state.health = course.result := by
  intro course
  obtain ⟨-, -, -, hnotes, -⟩ := course_sweep c w s x
  have haccounted : course.store = s.updateAll course.updates := Work.accounted_amid w Work.nobody (sweep c) s x
  refine ext_get fun service => ?_
  rw [haccounted, Store.health_updateAll, show course.updates.filterMap Update.note? = _ from hnotes, get_foldl_noting,
    if_pos (Service.mem_all service)]

theorem Board.run_sweep :
    let course := (sweep c).amid w Work.nobody s x
    (sweep c).run w s x = (course.result, course.store, course.world) :=
  (Work.amid_alone (sweep c) s x).symm

theorem Board.logged_sweep :
    let course := (sweep c).amid w Work.nobody s x
    Logged c s course.store (answered course.exchanges) := by
  have hlogged : Logged c s ((sweep c).run w s x).2.1 (answered ((sweep c).exchanges w s x)) :=
    logs_checkAll c Service.all .initial σ w s x
  rwa [run_sweep, ← Work.exchanges_alone (sweep c) s x] at hlogged

theorem Board.changes_sweep : (sweep c).Changes Task.sweep.MayMake :=
  changes_checkAll (fun _ => Task.mayMake_of_isRecording) c Service.all .initial fun _ hs _ => hs

end

/-- What a sweep has done, given what came of the request to each service that was asked. -/
structure Swept {σ : Type} (c : Config) (s : Store) (course : Course σ Board) (replies : Service → Option Reply) : Prop where
  asked : ∀ service, (replies service).isSome ↔ (c.baseUrl? service).isSome
  exchanges : course.exchanges = Service.all.filterMap fun service => service.probe c (replies service)
  ready : ∀ service, course.result.get service = .ready ↔ ∃ reply, replies service = some reply ∧ reply.Succeeds
  down : ∀ service, course.result.get service = .down ↔ ¬∃ reply, replies service = some reply ∧ reply.Succeeds
  /-- The updates of the store note each service once, in order. -/
  notes : course.updates.filterMap Update.note? = Service.all.map fun service => (service, course.result.get service)
  store : course.store = s.updateAll course.updates
  board : course.store.state.health = course.result
  allReady : course.store.state.health.overall = .allReady ↔ ∀ service, ∃ reply, replies service = some reply ∧ reply.Succeeds
  hasDown : course.store.state.health.overall = .hasDown ↔ ¬∀ service, ∃ reply, replies service = some reply ∧ reply.Succeeds
  logged : Logged c s course.store (answered course.exchanges)
  session : course.store.state.session = s.state.session
  drafts : course.store.state.drafts = s.state.drafts

/-- Whatever is known of the services before and whatever they reply, a sweep asks all that it can and comes to an end
    with a board. -/
theorem swept_run (c : Config) (p : Poller) {σ : Type} (w : World σ) (s : Store) (x : σ) :
    let course := (Board.sweep c).amid w Work.nobody s x
    (Board.sweep c).run w s x = (course.result, course.store, course.world) ∧
      (Task.sweep.work c p).run w s x = (.ok (.board course.result), course.store, course.world) ∧
      ∃ replies, Swept c s course replies := by
  intro course
  have hrun : (Board.sweep c).run w s x = (course.result, course.store, course.world) := Board.run_sweep c w s x
  have hboard : course.store.state.health = course.result := Board.health_sweep c w s x
  have hkept {ρ : Type} (view : State → ρ) (hview : ∀ u s, Task.sweep.MayMake u → view (u.apply s) = view s) :
      view course.store.state = view s.state := by
    have hsame := (Board.changes_sweep c).run_eq view hview w s x
    rwa [hrun] at hsame
  obtain ⟨replies, hasked, hexs, hnotes, hfound⟩ := Board.course_sweep c w s x
  refine ⟨hrun, ?_, replies, ?_⟩
  · rw [Task.work, Work.run_bind, hrun]
    rfl
  · exact {
      asked := hasked
      exchanges := hexs
      ready := fun service => by rw [hfound, Health.found_eq_ready_iff]
      down := fun service => by rw [hfound, Health.found_eq_down_iff]
      notes := hnotes
      store := Work.accounted_amid w Work.nobody (Board.sweep c) s x
      board := hboard
      allReady := by
        rw [hboard, Board.overall_eq_allReady_iff]
        simp only [course, hfound, Health.found_eq_ready_iff]
      hasDown := by
        rw [hboard, Board.overall_eq_hasDown_iff]
        simp only [course, hfound, Health.found_eq_down_iff, not_forall]
      logged := Board.logged_sweep c w s x
      session := hkept State.session fun u s hu => hu.session_apply s
      drafts := hkept State.drafts fun u s hu => hu.drafts_apply (by simp) (by simp) s }

end TicketDesk
