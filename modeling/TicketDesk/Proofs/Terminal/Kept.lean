import TicketDesk.Proofs.Terminal.Edits

/-! # Where kept ids come from

The worker keeps the id of an order only if a server gave it to the order in an answer of 2xx to the request that
creates it. The ids that work in hand may keep grow with such answers, and with nothing else. -/

namespace TicketDesk

/-- A request creates an order, and an answer of 2xx gives the order its id. -/
structure Grants (c : Config) (id : String) (wire : Wire) (reply : Reply) : Prop where
  request : ∃ base, c.baseUrl? .order = some base ∧ wire.method = .post ∧ wire.url = base ++ "/orders"
  answer : ∃ a, reply = .answer a ∧ isSuccess a.status = true ∧ createdOrderId? a.data = some id

/-! ### Programs -/

namespace Work

variable {α β : Type} {c : Config} {ids ids' : String → Prop}

/-- Whatever the world answers, each id that a program keeps is one that it may keep from the start, or an answer has
    given it since. Its result is such as it must be with the ids that it may keep by then. -/
def Keeps (c : Config) (result : (String → Prop) → α → Prop) : (String → Prop) → Work α → Prop
  | ids, .done a => result ids a
  | ids, .look next => ∀ s, (next s).Keeps c result ids
  | ids, .change us next => (∀ u ∈ us, ∀ id, u.captured? = some (.capture id) → ids id) ∧ next.Keeps c result ids
  | ids, .send wire next => ∀ r, (next r).Keeps c result fun id => ids id ∨ Grants c id wire r
  | ids, .moment next => ∀ m, (next m).Keeps c result ids
  | ids, .say _ next => next.Keeps c result ids
  | ids, .wait _ next => ∀ now, (next now).Keeps c result ids

/-- Nothing is asked of the result. -/
def KeepsOnly (c : Config) (ids : String → Prop) (work : Work α) : Prop := work.Keeps c (fun _ _ => True) ids

theorem Keeps.bind {result : (String → Prop) → α → Prop} {result' : (String → Prop) → β → Prop} {work : Work α}
    {f : α → Work β} (h : work.Keeps c result ids) (hf : ∀ ids' a, result ids' a → (f a).Keeps c result' ids') :
    (work.bind f).Keeps c result' ids := by
  induction work generalizing ids with
  | done a => exact hf ids a h
  | look next ih => exact fun s => ih s (h s)
  | change us next ih => exact ⟨h.1, ih h.2⟩
  | send wire next ih => exact fun r => ih r (h r)
  | moment next ih => exact fun m => ih m (h m)
  | say line next ih => exact ih h
  | wait millis next ih => exact fun now => ih now (h now)

theorem KeepsOnly.mono {work : Work α} (h : work.KeepsOnly c ids) (hids : ∀ id, ids id → ids' id) :
    work.KeepsOnly c ids' := by
  induction work generalizing ids ids' with
  | done a => trivial
  | look next ih => exact fun s => ih s (h s) hids
  | change us next ih => exact ⟨fun u hu id hid => hids id (h.1 u hu id hid), ih h.2 hids⟩
  | send wire next ih => exact fun r => ih r (h r) fun id => Or.imp_left (hids id)
  | moment next ih => exact fun m => ih m (h m) hids
  | say line next ih => exact ih h hids
  | wait millis next ih => exact fun now => ih now (h now) hids

theorem keepsOnly_of_changes {work : Work α} (h : work.Changes fun u => u.captured? = none) : work.KeepsOnly c ids := by
  induction work generalizing ids with
  | done a => trivial
  | look next ih => exact fun s => ih s (h s)
  | change us next ih =>
    refine ⟨fun u hu id hid => ?_, ih h.2⟩
    rw [h.1 u hu] at hid
    cases hid
  | send wire next ih => exact fun r => ih r (h r)
  | moment next ih => exact fun m => ih m (h m)
  | say line next ih => exact ih h
  | wait millis next ih => exact fun now => ih now (h now)

/-- A step that sends a request adds the ids that the reply gives. -/
theorem KeepsOnly.next {work : Work α} (h : work.KeepsOnly c ids) (st : Stage) :
    (work.next st).KeepsOnly c fun id => ids id ∨ ∃ wire ∈ work.outgoing, Grants c id wire st.reply := by
  cases work with
  | done a => trivial
  | look next => exact KeepsOnly.mono (h st.state) fun _ => Or.inl
  | change us next => exact KeepsOnly.mono h.2 fun _ => Or.inl
  | send wire next =>
    refine KeepsOnly.mono (h st.reply) fun id => Or.imp_right fun hgrants => ?_
    exact ⟨wire, List.mem_singleton_self wire, hgrants⟩
  | moment next => exact KeepsOnly.mono (h st.moment) fun _ => Or.inl
  | say line next => exact KeepsOnly.mono h fun _ => Or.inl
  | wait millis next => exact KeepsOnly.mono (h st.clock) fun _ => Or.inl

end Work

/-! ### Tasks -/

/-- With an answer to a request that creates an order its hook keeps the id that the answer gives, and none else. -/
theorem Request.keeps_conclude {c : Config} {wire : Wire} {r : Request} {a : Answer} {ids : String → Prop}
    (hrequest : ∃ base, c.baseUrl? .order = some base ∧ wire.method = .post ∧ wire.url = base ++ "/orders") :
    (r.conclude a).Keeps c (fun ids out => ∀ data, out = .ok data → ∀ id, createdOrderId? data = some id → ids id)
      fun id => ids id ∨ Grants c id wire (.answer a) := by
  rw [conclude]
  split
  · next hsuccess =>
    have hgrants (id : String) (hid : createdOrderId? a.data = some id) :
        ids id ∨ Grants c id wire (.answer a) := Or.inr ⟨hrequest, a, rfl, hsuccess, hid⟩
    have hdone : ∀ data, Except.ok (ε := Fault) a.data = .ok data → ∀ id, createdOrderId? data = some id →
        ids id ∨ Grants c id wire (.answer a) := fun _ hdata => Except.ok.inj hdata ▸ hgrants
    split
    · next hook _ =>
      cases hook
      refine ⟨fun u hu id hid => ?_, hdone⟩
      obtain rfl := List.mem_singleton.mp hu
      obtain ⟨kept, hkept, hsame⟩ := Option.map_eq_some_iff.mp hid
      cases hsame
      exact hgrants id hkept
    · exact hdone
  · intro data hdata
    cases hdata

/-- A request that creates an order keeps no id but the one that an answer gives to it, and its data give no other. -/
theorem Request.keeps_execute (c : Config) {r : Request} {key : String} {amount : Int64}
    (hcall : r.call = createOrder key amount) (ids : String → Prop) :
    (r.execute c).Keeps c (fun ids out => ∀ data, out = .ok data → ∀ id, createdOrderId? data = some id → ids id) ids := by
  rw [execute]
  split
  · intro data hdata
    cases hdata
  · next url hurl =>
    rw [hcall, Config.url] at hurl
    split at hurl
    · next base hb =>
      obtain rfl := Except.ok.inj hurl
      rw [hcall]
      intro reply
      cases reply with
      | unreachable detail =>
        intro data hdata
        cases hdata
      | answer a =>
        refine fun m => ⟨fun u hu id hid => ?_, r.keeps_conclude ⟨base, hb, rfl, rfl⟩⟩
        rcases List.mem_pair.mp hu with rfl | rfl <;> cases hid
    · cases hurl

namespace Task

theorem MayMake.captured?_eq_none {t : Task} {u : Update} (h : t.MayMake u) (hc : t ≠ .action .createOrder)
    (hf : t ≠ .flow .order) : u.captured? = none := by
  cases u with
  | drafts edit =>
    cases edit with
    | capture hook data => exact absurd h hc
    | keepOrderId id => exact absurd h hf
    | _ => rfl
  | _ => rfl

/-- The order flow keeps no id but the one that the answer gives to the order that it creates. -/
theorem keepsOnly_runOrder (c : Config) (ids : String → Prop) : (Flow.runOrder c).KeepsOnly c ids := by
  refine fun s m => (Request.keeps_execute c rfl ids).bind fun ids' out hout => ?_
  cases out with
  | error e => trivial
  | ok data =>
    dsimp only
    split
    · trivial
    · next id hid =>
      have hgranted : createdOrderId? data = some id := (Option.filter_eq_some_iff.mp hid).1
      refine ⟨fun u hu kept hkept => ?_, Work.keepsOnly_of_changes ?_⟩
      · obtain rfl := List.mem_singleton.mp hu
        cases hkept
        exact hout data rfl id hgranted
      · refine Work.Changes.onSuccess (Flow.changes_executeAll ?_ c _ ?_) fun _ => trivial
        · intro u hu
          cases u with
          | drafts edit => cases hu
          | _ => rfl
        · simp [Flow.orderRequests]

/-- A task keeps no id but those that answers give to the orders that it creates. -/
theorem keepsOnly_work (c : Config) (p : Poller) (t : Task) (ids : String → Prop) : (t.work c p).KeepsOnly c ids := by
  by_cases hc : t = .action .createOrder
  · subst hc
    exact fun s => (Request.keeps_execute c rfl ids).bind fun _ out _ => by cases out <;> trivial
  · by_cases hf : t = .flow .order
    · subst hf
      exact (keepsOnly_runOrder c ids).bind fun _ out _ => by cases out <;> trivial
    · exact Work.keepsOnly_of_changes ((changes_work c p t).mono fun u hu => hu.captured?_eq_none hc hf)

end Task

/-! ### Runs -/

namespace Terminal.Desk

variable {c : Config} {d : Desk} {ids : String → Prop}

/-- What goes out in an event, each with what is replied to it. -/
def exchanged (d : Desk) : Event → List (Wire × Reply)
  | .work reply _ _ => d.console.runner.running.toList.flatMap fun task => task.2.outgoing.map fun wire => (wire, reply)
  | _ => []

/-- The work in hand keeps no ids but some that it may keep, and those that it is given. -/
def Keeping (c : Config) (d : Desk) (ids : String → Prop) : Prop :=
  ∀ name work, d.console.runner.running = some (name, work) → work.KeepsOnly c ids

/-- The ids that orders were given in a run. -/
def GrantedIn (c : Config) (d : Desk) (es : List Event) (id : String) : Prop :=
  ∃ wire reply, (wire, reply) ∈ collect c exchanged d es ∧ Grants c id wire reply

theorem Keeping.after (h : d.Keeping c ids) (e : Event) :
    (d.after c e).Keeping c fun id => ids id ∨ ∃ wire reply, (wire, reply) ∈ d.exchanged e ∧ Grants c id wire reply := by
  intro name work hnow
  cases e with
  | key e now m =>
    exact (h name work ((running_front c d (e := .key e now m) rfl).symm.trans hnow)).mono fun _ => Or.inl
  | tick now => exact (h name work ((running_front c d (e := .tick now) rfl).symm.trans hnow)).mono fun _ => Or.inl
  | begin =>
    simp only [Desk.after] at hnow
    rcases d.console.runner.begin_cases c d.console.poller with ⟨t, rest, -, -, hbegin⟩ | ⟨-, hbegin⟩
    · rw [hbegin] at hnow
      obtain ⟨-, rfl⟩ := Prod.mk.inj (Option.some.inj hnow)
      exact t.keepsOnly_work c _ _
    · rw [hbegin] at hnow
      exact (h name work hnow).mono fun _ => Or.inl
  | work reply moment clock =>
    cases hrunning : d.console.runner.running with
    | none =>
      simp only [Desk.after, hrunning] at hnow
      cases hnow
    | some task =>
      rw [after_work hrunning] at hnow
      obtain ⟨-, rfl⟩ := Prod.mk.inj (Option.some.inj hnow)
      refine ((h _ _ hrunning).next _).mono fun id => Or.imp_right fun hnew => ?_
      obtain ⟨wire, hwire, hgrants⟩ := hnew
      refine ⟨wire, reply, ?_, hgrants⟩
      rw [exchanged, hrunning, Option.toList_some, List.flatMap_singleton]
      exact List.mem_map_of_mem hwire
  | report =>
    simp only [Desk.after] at hnow
    rcases d.console.runner.finish_cases with ⟨old, outcome, -, hfinish⟩ | hfinish
    · rw [hfinish] at hnow
      cases hnow
    · rw [hfinish] at hnow
      exact (h name work hnow).mono fun _ => Or.inl

theorem keeping_run (c : Config) (s : Store) (ms : Nat) (es : List Event) :
    ((start s ms).run c es).Keeping c (GrantedIn c (start s ms) es) := by
  induction es using List.reverseRecOn with
  | nil =>
    intro name work h
    cases h
  | append_singleton es e ih =>
    intro name work hnow
    rw [run_concat] at hnow
    refine (ih.after e name work hnow).mono fun id hid => ?_
    rw [GrantedIn, collect_concat]
    rcases hid with ⟨wire, reply, hmem, hgrants⟩ | ⟨wire, reply, hmem, hgrants⟩
    · exact ⟨wire, reply, List.mem_append_left _ hmem, hgrants⟩
    · exact ⟨wire, reply, List.mem_append_right _ hmem, hgrants⟩

/-- Keys keep no ids, and the work in hand none that it may not keep. -/
theorem Keeping.of_mem_writes (h : d.Keeping c ids) {e : Event} {id : String} (hmem : .capture id ∈ d.writes e) :
    ids id := by
  cases e with
  | key e now m =>
    exfalso
    rw [writes, keyWrites] at hmem
    split at hmem
    · unfold commandWrites at hmem
      split at hmem
      · split at hmem
        · obtain ⟨x, -, hx⟩ := List.mem_map.mp hmem
          cases hx
        · cases hmem
      · split at hmem
        · cases List.mem_singleton.mp hmem
        · cases hmem
      · cases hmem
    · cases hmem
  | work reply moment clock =>
    rw [writes] at hmem
    obtain ⟨⟨name, work⟩, hrunning, hmem⟩ := List.mem_flatMap.mp hmem
    obtain ⟨u, hu, hkept⟩ := List.mem_filterMap.mp hmem
    have hwork := h name work (Option.mem_toList.mp hrunning)
    cases work with
    | change us next => exact hwork.1 u hu id hkept
    | _ => cases hu
  | _ => cases hmem

/-- Each id that the worker keeps in a run was given to an order by then, in an answer to the request that created it. -/
theorem granted_of_capture (c : Config) (s : Store) (ms : Nat) (es : List Event) {id : String}
    (h : .capture id ∈ collect c writes (start s ms) es) : GrantedIn c (start s ms) es id := by
  induction es using List.reverseRecOn with
  | nil => cases h
  | append_singleton es e ih =>
    have hgranted : GrantedIn c (start s ms) es id := by
      rw [collect_concat, List.mem_append] at h
      exact h.elim ih (keeping_run c s ms es).of_mem_writes
    obtain ⟨wire, reply, hmem, hgrants⟩ := hgranted
    exact ⟨wire, reply, collect_concat ▸ List.mem_append_left _ hmem, hgrants⟩

/-- The operator edits the amount of an order that is being created. The worker keeps the id before the edit is
    confirmed; the request has the amount from before, and in the end the drafts have both. -/
example :
    let key (code : KeyCode) : Event := .key { code := code } 0 ⟨0, 0, ""⟩
    let work : Event := .work (.answer ⟨201, "\x7b\"OrderID\":\"o-7\"\x7d", 5⟩) ⟨0, 0, ""⟩ 0
    let create := key (.char '2') :: List.replicate 5 (key .down) ++ [key .enter, .begin, work]
    let edit := List.replicate 3 (key .up) ++ [key .enter, key (.char '0')]
    let d := start ((Store.load .unwritable).update (.session (some ⟨"ops", "tok"⟩))) 3000
    let kept := d.run .initial (create ++ edit ++ [work, work, work, work])
    let done := kept.after .initial (key .enter)
    (kept.store.state.drafts.orderId, kept.store.state.drafts.amountCents) = ("o-7", 10000) ∧
      (done.store.state.drafts.orderId, done.store.state.drafts.amountCents) = ("o-7", 100000) ∧
      (collect .initial outgoing d (create ++ edit ++ [work])).map Wire.body =
        [some "\x7b\"amount_cents\":10000,\"idempotency_key\":\"demo-key-1\"\x7d"] := by
  decide +kernel

end Terminal.Desk

end TicketDesk
