import TicketDesk.Proofs.Work.Frame
import TicketDesk.Proofs.Work.Replies

/-! # What a flow sends

A flow follows a script of requests that is made from the drafts at its start, whatever others do to the
drafts meanwhile. It sends the next one when the one before was answered with 2xx, so the requests that go out
are the first ones of the script, and the first that fails ends the flow with its fault. The order flow keeps the id of
the order that it created right away, and without an id it ends after its first request. -/

namespace TicketDesk

/-! ### Scripts -/

/-- The requests of a script went out in order, up to the first that failed, and the outcome is its fault. -/
inductive Followed : List Wire → List (Wire × Reply) → Except Fault Unit → Prop
  | finished : Followed [] [] (.ok ())
  | failed {wire : Wire} {script : List Wire} {reply : Reply} {e : Fault} (h : reply.outcome = .error e) :
    Followed (wire :: script) [(wire, reply)] (.error e)
  | answered {wire : Wire} {script : List Wire} {reply : Reply} {data : Json} {exs : List (Wire × Reply)}
    {outcome : Except Fault Unit} (h : reply.outcome = .ok data) (hrest : Followed script exs outcome) :
    Followed (wire :: script) ((wire, reply) :: exs) outcome

/-- The first so many requests were sent and answered with 2xx. -/
def Succeeded (exs : List (Wire × Reply)) (k : Nat) : Prop := ∀ j < k, ∃ ex, exs[j]? = some ex ∧ ex.2.Succeeds

/-- A request was sent, none before it failed, and it failed like this. -/
def FirstFails (exs : List (Wire × Reply)) (e : Fault) : Prop :=
  ∃ before wire reply, exs = before ++ [(wire, reply)] ∧ (∀ ex ∈ before, ex.2.Succeeds) ∧ reply.outcome = .error e

section

variable {exs : List (Wire × Reply)} {ex : Wire × Reply} {k : Nat} {e : Fault}

theorem succeeded_zero : Succeeded exs 0 := fun _ hj => absurd hj (Nat.not_lt_zero _)

theorem succeeded_cons : Succeeded (ex :: exs) (k + 1) ↔ ex.2.Succeeds ∧ Succeeded exs k := by
  constructor
  · intro h
    obtain ⟨first, hfirst, hsucceeds⟩ := h 0 k.succ_pos
    cases hfirst
    exact ⟨hsucceeds, fun j hj => h (j + 1) (Nat.succ_lt_succ hj)⟩
  · rintro ⟨hsucceeds, hrest⟩ j hj
    cases j with
    | zero => exact ⟨ex, rfl, hsucceeds⟩
    | succ j => exact hrest j (Nat.lt_of_succ_lt_succ hj)

theorem not_succeeded_nil : ¬Succeeded [] (k + 1) := by
  intro h
  obtain ⟨ex, hex, -⟩ := h 0 k.succ_pos
  cases hex

theorem firstFails_cons (h : ex.2.Succeeds) : FirstFails (ex :: exs) e ↔ FirstFails exs e := by
  constructor
  · rintro ⟨before, wire, reply, hexs, hbefore, hreply⟩
    cases before with
    | nil =>
      obtain ⟨rfl, -⟩ := List.cons.inj hexs
      exact absurd h (Reply.not_succeeds_of_outcome hreply)
    | cons first before => exact ⟨before, wire, reply, (List.cons.inj hexs).2, fun ex hex => hbefore ex (.tail _ hex), hreply⟩
  · rintro ⟨before, wire, reply, rfl, hbefore, hreply⟩
    exact ⟨ex :: before, wire, reply, rfl, List.forall_mem_cons.mpr ⟨h, hbefore⟩, hreply⟩

end

namespace Followed

variable {script : List Wire} {exs : List (Wire × Reply)} {outcome : Except Fault Unit}

theorem map_fst (h : Followed script exs outcome) : exs.map Prod.fst <+: script := by
  induction h with
  | finished => exact List.nil_prefix
  | failed h => exact List.cons_prefix_cons.mpr ⟨rfl, List.nil_prefix⟩
  | answered h hrest ih => exact List.cons_prefix_cons.mpr ⟨rfl, ih⟩

theorem length_le (h : Followed script exs outcome) : exs.length ≤ script.length := by
  simpa using h.map_fst.length_le

/-- A request of the script goes out just when all before it are answered with 2xx. -/
theorem lt_length_iff (h : Followed script exs outcome) {k : Nat} (hk : k < script.length) :
    k < exs.length ↔ Succeeded exs k := by
  induction h generalizing k with
  | finished => cases hk
  | failed h =>
    cases k with
    | zero => exact iff_of_true (Nat.zero_lt_one) succeeded_zero
    | succ k =>
      exact iff_of_false (by simp) fun hsucceeded => Reply.not_succeeds_of_outcome h (succeeded_cons.mp hsucceeded).1
  | answered h hrest ih =>
    cases k with
    | zero => exact iff_of_true (Nat.succ_pos _) succeeded_zero
    | succ k =>
      rw [succeeded_cons, ← ih (Nat.lt_of_succ_lt_succ hk), List.length_cons, Nat.succ_lt_succ_iff]
      exact (and_iff_right (Reply.succeeds_of_outcome h)).symm

/-- The script is done just when all of it is answered with 2xx. -/
theorem ok_iff (h : Followed script exs outcome) : outcome = .ok () ↔ Succeeded exs script.length := by
  induction h with
  | finished => exact iff_of_true rfl succeeded_zero
  | failed h =>
    exact iff_of_false (by simp) fun hsucceeded => Reply.not_succeeds_of_outcome h (succeeded_cons.mp hsucceeded).1
  | answered h hrest ih =>
    rw [ih, List.length_cons, succeeded_cons]
    exact (and_iff_right (Reply.succeeds_of_outcome h)).symm

/-- The outcome is a fault just when it is that of the first request to fail. -/
theorem error_iff (h : Followed script exs outcome) {e : Fault} : outcome = .error e ↔ FirstFails exs e := by
  induction h with
  | finished =>
    refine iff_of_false (by simp) ?_
    rintro ⟨before, wire, reply, hexs, -, -⟩
    exact absurd hexs (by simp)
  | @failed wire script reply e' h =>
    constructor
    · intro he
      exact ⟨[], wire, reply, rfl, by simp, h.trans (congrArg _ (Except.error.inj he))⟩
    · rintro ⟨before, wire', reply', hexs, -, hreply⟩
      have hlast : [(wire, reply)].getLast? = some (wire', reply') := by simp [hexs]
      obtain ⟨rfl, rfl⟩ : wire = wire' ∧ reply = reply' := by simpa using hlast
      exact congrArg _ (Except.error.inj (h.symm.trans hreply))
  | answered h hrest ih => rw [ih, firstFails_cons (Reply.succeeds_of_outcome h)]

end Followed

namespace Flow

/-- What a flow of orders sends once it has an id: it reserves the order, pays it under a stamped id and looks it up. -/
def orderSteps (base : Service → String) (d : Drafts) (stamp : String) : Option String → List Wire
  | none => []
  | some id =>
    [⟨.post, base .order ++ "/orders/reserve", some (Json.ofMembers [("order_id", .text id)]).write⟩,
     ⟨.post, base .order ++ "/payments/callback", some (Json.ofMembers
       [("order_id", .text id), ("provider_txn_id", .text (d.providerTxnId ++ "-" ++ stamp)),
        ("status", .text d.paymentStatus)]).write⟩,
     ⟨.get, base .query ++ ("/query/orders?order_id=" ++ Text.encodeComponent id), none⟩]

/-- What a flow of orders sends: it creates an order under a key with the same stamp and goes on with its id. -/
def orderScript (base : Service → String) (d : Drafts) (stamp : String) (orderId? : Option String) : List Wire :=
  ⟨.post, base .order ++ "/orders", some (Json.ofMembers
    [("idempotency_key", .text (d.idempotencyKey ++ "-" ++ stamp)), ("amount_cents", .ofInt64 d.amountCents)]).write⟩ ::
  orderSteps base d stamp orderId?

/-- What a flow of holds sends. -/
def holdScript (base : Service → String) (d : Drafts) : List Wire :=
  [⟨.post, base .inventory ++ "/inventory/try-hold", some (Json.ofMembers
     [("partition_key", .text d.partitionKey), ("hold_id", .text d.holdId), ("qty", .ofInt64 d.qty),
      ("capacity", .ofInt64 d.capacity)]).write⟩,
   ⟨.post, base .inventory ++ "/inventory/confirm-hold", some (Json.ofMembers
     [("partition_key", .text d.partitionKey), ("hold_id", .text d.holdId)]).write⟩,
   ⟨.get, base .inventory ++ ("/inventory/availability?partition_key=" ++ Text.encodeComponent d.partitionKey), none⟩]

/-- The id that a flow of orders goes on with: that in the answer to its first request. -/
def orderIn? (exs : List (Wire × Reply)) : Option String :=
  exs.head?.bind fun ex => ex.2.outcome.toOption.bind usableOrderId?

/-- The text of the time at which a flow of orders stamps its requests. -/
def stampAt {σ : Type} (w : World σ) (others : Others σ) (x : σ) : String :=
  String.ofList (Text.showInt (w.moment (others x).2).1.millis.toInt)

/-- How a flow of orders ends when all that it sends is answered with 2xx. -/
def orderEnding : Option String → FlowOutcome
  | none => .aborted createLabel
  | some id => .completed 4 (some id)

theorem orderIn?_cons (wire : Wire) (reply : Reply) (exs : List (Wire × Reply)) :
    orderIn? ((wire, reply) :: exs) = reply.outcome.toOption.bind usableOrderId? := rfl

theorem orderIn?_eq_some_iff {exs : List (Wire × Reply)} {id : String} :
    orderIn? exs = some id ↔ ∃ wire a v, exs.head? = some (wire, .answer a) ∧ (200 ≤ a.status ∧ a.status < 300) ∧
      a.data.member? "OrderID" = some v ∧ renderBody v = id ∧ id ≠ "" := by
  have husable (data : Json) : usableOrderId? data = some id ↔
      ∃ v, data.member? "OrderID" = some v ∧ renderBody v = id ∧ id ≠ "" := by
    simp only [usableOrderId?, createdOrderId?, Option.filter_eq_some_iff, Option.map_eq_some_iff, decide_eq_true_eq,
      ← exists_and_right, and_assoc]
  constructor
  · intro h
    obtain ⟨⟨wire, reply⟩, hhead, h⟩ := Option.bind_eq_some_iff.mp h
    obtain ⟨data, hdata, h⟩ := Option.bind_eq_some_iff.mp h
    cases houtcome : reply.outcome with
    | error e => simp [houtcome, Except.toOption] at hdata
    | ok data' =>
      obtain rfl : data' = data := by simpa [houtcome, Except.toOption] using hdata
      obtain ⟨a, rfl, hstatus, rfl⟩ := Reply.outcome_eq_ok_iff.mp houtcome
      obtain ⟨v, hv⟩ := (husable _).mp h
      exact ⟨wire, a, v, hhead, hstatus, hv⟩
  · rintro ⟨wire, a, v, hhead, hstatus, hv⟩
    rw [orderIn?, hhead]
    show (Reply.answer a).outcome.toOption.bind usableOrderId? = some id
    rw [Reply.outcome_eq_ok_iff.mpr ⟨a, rfl, hstatus, rfl⟩]
    exact (husable _).mpr ⟨v, hv⟩

section

variable {σ : Type} {c : Config} {base : Service → String} (hbase : ∀ service, c.baseUrl? service = some (base service))
  (w : World σ) (others : Others σ)

include hbase

theorem course_executeAll {rs : List Request} (hrs : ∀ r ∈ rs, r.hook = none) (s : Store) (x : σ) :
    ∃ exs, ((executeAll c rs).amid w others s x).acts = exs.map .ofExchange ∧
      Followed (rs.map fun r => r.wire (base r.call.service)) exs ((executeAll c rs).amid w others s x).result := by
  induction rs generalizing s x with
  | nil => exact ⟨[], rfl, .finished⟩
  | cons r rest ih =>
    rw [List.forall_mem_cons] at hrs
    obtain ⟨reply, hacts, hresult⟩ := Request.course_execute w others s x hrs.1 (hbase r.call.service)
    cases houtcome : reply.outcome with
    | error e =>
      rw [executeAll, Work.amid_onSuccess_error (hresult.trans houtcome)]
      exact ⟨[(_, reply)], hacts, .failed houtcome⟩
    | ok data =>
      obtain ⟨exs, hrest, hfollowed⟩ := ih hrs.2 ((r.execute c).amid w others s x).store ((r.execute c).amid w others s x).world
      rw [executeAll, Work.amid_onSuccess_ok (hresult.trans houtcome)]
      refine ⟨(_, reply) :: exs, ?_, .answered houtcome hfollowed⟩
      rw [Course.acts_followed, hacts, hrest]
      rfl

theorem course_afterCreate (d : Drafts) (m : Moment) (data : Json) (s : Store) (x : σ) :
    ∃ exs outcome,
      Followed (orderSteps base d (String.ofList (Text.showInt m.millis.toInt)) (usableOrderId? data)) exs outcome ∧
      ((afterCreate c d m data).amid w others s x).acts =
        ((usableOrderId? data).toList.map .keepOrderId).map .edited ++ exs.map .ofExchange ∧
      ((afterCreate c d m data).amid w others s x).result =
        outcome.map fun _ => orderEnding (usableOrderId? data) := by
  rw [afterCreate]
  cases usableOrderId? data with
  | none => exact ⟨[], .ok (), .finished, rfl, rfl⟩
  | some id =>
    let s' := (s.updateAll [.drafts (.keepOrderId id)]).updateAll (others x).1
    let course := (executeAll c (orderRequests d m id)).amid w others s' (others x).2
    have hhooks : ∀ r ∈ orderRequests d m id, r.hook = none := by simp [orderRequests]
    obtain ⟨exs, hacts, hfollowed⟩ := course_executeAll hbase w others hhooks s' (others x).2
    have hcourse : (Work.change [.drafts (.keepOrderId id)] ((executeAll c (orderRequests d m id)).onSuccess fun _ =>
        .done (.ok (.completed 4 (some id))))).amid w others s x =
          { course with result := course.result.map fun _ => orderEnding (some id) }.preceded
            [.changed [.drafts (.keepOrderId id)], .intruded (others x).1] :=
      congrArg (Course.preceded · _) (Work.amid_onSuccess_done _ _ s' _)
    refine ⟨exs, course.result, hfollowed, ?_, ?_⟩
    · rw [hcourse]
      exact congrArg (Act.edited (.keepOrderId id) :: ·) hacts
    · rw [hcourse]
      rfl

/-- A flow of orders follows its script, and keeps the id right after its first request. -/
theorem course_runOrder (s : Store) (x : σ) :
    ∃ first exs outcome,
      Followed (orderScript base s.state.drafts (stampAt w others x) (orderIn? (first :: exs))) (first :: exs) outcome ∧
      ((runOrder c).amid w others s x).acts =
        [first].map .ofExchange ++ ((orderIn? (first :: exs)).toList.map .keepOrderId).map .edited ++ exs.map .ofExchange ∧
      ((runOrder c).amid w others s x).result = outcome.map fun _ => orderEnding (orderIn? (first :: exs)) := by
  -- The others have a turn after the drafts are read and one after the clock is.
  let m := (w.moment (others x).2).1
  let x' := (others (w.moment (others x).2).2).2
  let s' := (s.updateAll (others x).1).updateAll (others (w.moment (others x).2).2).1
  let create := (createRequest s.state.drafts m).execute c
  let course := (create.onSuccess (afterCreate c s.state.drafts m)).amid w others s' x'
  have hacts : ((runOrder c).amid w others s x).acts = course.acts := rfl
  have hresult : ((runOrder c).amid w others s x).result = course.result := rfl
  have hhook : (createRequest s.state.drafts m).hook = none := rfl
  obtain ⟨reply, hcreate, hreply⟩ := Request.course_execute w others s' x' hhook (hbase .order)
  cases houtcome : reply.outcome with
  | error e =>
    have hcourse : course = { create.amid w others s' x' with result := .error e } :=
      Work.amid_onSuccess_error (hreply.trans houtcome)
    refine ⟨(_, reply), [], .error e, .failed houtcome, ?_, ?_⟩
    · rw [hacts, hcourse, orderIn?_cons, houtcome]
      exact hcreate
    · rw [hresult, hcourse]
      rfl
  | ok data =>
    have hcourse : course = (create.amid w others s' x').followed fun _ => (afterCreate c s.state.drafts m data).amid w others :=
      Work.amid_onSuccess_ok (hreply.trans houtcome)
    obtain ⟨exs, outcome, hfollowed, hrest, hending⟩ := course_afterCreate hbase w others s.state.drafts m data
      (create.amid w others s' x').store (create.amid w others s' x').world
    have hid (wire : Wire) : orderIn? ((wire, reply) :: exs) = usableOrderId? data := by
      rw [orderIn?_cons, houtcome]
      rfl
    refine ⟨(_, reply), exs, outcome, .answered houtcome ((hid _).symm ▸ hfollowed), ?_, ?_⟩
    · rw [hacts, hcourse, Course.acts_followed, hrest, hcreate, hid]
      rfl
    · rw [hresult, hcourse, hid]
      exact hending

theorem course_runInventory (s : Store) (x : σ) :
    ∃ exs outcome, Followed (holdScript base s.state.drafts) exs outcome ∧
      ((runInventory c).amid w others s x).acts = exs.map .ofExchange ∧
      ((runInventory c).amid w others s x).result = outcome.map fun _ => FlowOutcome.completed 3 none := by
  let s' := s.updateAll (others x).1
  let course := (executeAll c (holdRequests s.state.drafts)).amid w others s' (others x).2
  have hhooks : ∀ r ∈ holdRequests s.state.drafts, r.hook = none := by simp [holdRequests]
  obtain ⟨exs, hacts, hfollowed⟩ := course_executeAll hbase w others hhooks s' (others x).2
  have hcourse : (runInventory c).amid w others s x =
      { course with result := course.result.map fun _ => FlowOutcome.completed 3 none }.preceded [.intruded (others x).1] :=
    congrArg (Course.preceded · _) (Work.amid_onSuccess_done _ _ s' _)
  refine ⟨exs, course.result, hfollowed, ?_, ?_⟩
  · rw [hcourse]
    exact hacts
  · rw [hcourse]
    rfl

end

/-! ### The two flows -/

section

variable {σ : Type}

/-- What a flow that is done has made of its script. -/
structure Scripted (script : List Wire) (s : Store) (course : Course σ (Except Fault FlowOutcome)) : Prop where
  inOrder : course.exchanges.map Prod.fst <+: script
  failed : ∀ e, course.result = .error e ↔ FirstFails course.exchanges e
  store : course.Accounted s

/-- A flow of orders. It sends what comes next when all before was answered with 2xx, and after the first request
    only with an id. The id becomes that of the drafts between the first request and the second, and stays. -/
structure Orders (base : Service → String) (stamp : String) (s : Store) (course : Course σ (Except Fault FlowOutcome)) :
    Prop extends Scripted (orderScript base s.state.drafts stamp (orderIn? course.exchanges)) s course where
  orderId : ∀ id, orderIn? course.exchanges = some id ↔
    ∃ wire a v, course.exchanges.head? = some (wire, .answer a) ∧ (200 ≤ a.status ∧ a.status < 300) ∧
      a.data.member? "OrderID" = some v ∧ renderBody v = id ∧ id ≠ ""
  sent : ∀ k < 4, k < course.exchanges.length ↔
    Succeeded course.exchanges k ∧ (0 < k → (orderIn? course.exchanges).isSome)
  completed : ∀ steps orderId?, course.result = .ok (.completed steps orderId?) ↔
    Succeeded course.exchanges 4 ∧ steps = 4 ∧ orderId? = orderIn? course.exchanges
  aborted : ∀ label, course.result = .ok (.aborted label) ↔
    Succeeded course.exchanges 1 ∧ orderIn? course.exchanges = none ∧ label = "Flow/Create Order"
  acts : course.acts = (course.exchanges.take 1).map .ofExchange ++
    ((orderIn? course.exchanges).toList.map .keepOrderId).map .edited ++ (course.exchanges.drop 1).map .ofExchange
  drafts : (∀ us, Deed.intruded us ∈ course.deeds → us.filterMap Update.edit? = []) →
    course.store.state.drafts = s.state.drafts.withOrder (orderIn? course.exchanges)
  single : orderIn? course.exchanges = none → course.exchanges.length = 1

/-- A flow of holds. It sends what comes next when all before was answered with 2xx, and edits no draft. -/
structure Holds (base : Service → String) (s : Store) (course : Course σ (Except Fault FlowOutcome)) : Prop
    extends Scripted (holdScript base s.state.drafts) s course where
  sent : ∀ k < 3, k < course.exchanges.length ↔ Succeeded course.exchanges k
  completed : ∀ steps orderId?, course.result = .ok (.completed steps orderId?) ↔
    Succeeded course.exchanges 3 ∧ steps = 3 ∧ orderId? = none
  unaborted : ∀ label, course.result ≠ .ok (.aborted label)
  acts : course.acts = course.exchanges.map .ofExchange
  drafts : (∀ us, Deed.intruded us ∈ course.deeds → us.filterMap Update.edit? = []) →
    course.store.state.drafts = s.state.drafts

variable {course : Course σ (Except Fault FlowOutcome)} {s : Store} {exs : List (Wire × Reply)} {script : List Wire}
  {outcome : Except Fault Unit} {ending : FlowOutcome}

theorem scripted_of_followed (h : Followed script course.exchanges outcome)
    (hresult : course.result = outcome.map fun _ => ending) (hstore : course.Accounted s) : Scripted script s course where
  inOrder := h.map_fst
  failed e := by
    rw [hresult, ← h.error_iff]
    cases outcome <;> simp [Except.map]
  store := hstore

theorem result_eq_ok_iff (h : Followed script exs outcome) (hresult : course.result = outcome.map fun _ => ending)
    {o : FlowOutcome} : course.result = .ok o ↔ Succeeded exs script.length ∧ ending = o := by
  rw [hresult, ← h.ok_iff]
  cases outcome <;> simp [Except.map]

theorem orders_of_followed {base : Service → String} {stamp : String} {first : Wire × Reply}
    (h : Followed (orderScript base s.state.drafts stamp (orderIn? (first :: exs))) (first :: exs) outcome)
    (hacts : course.acts =
      [first].map .ofExchange ++ ((orderIn? (first :: exs)).toList.map .keepOrderId).map .edited ++ exs.map .ofExchange)
    (hresult : course.result = outcome.map fun _ => orderEnding (orderIn? (first :: exs))) (hstore : course.Accounted s) :
    Orders base stamp s course := by
  have hexs : course.exchanges = first :: exs := Course.exchanges_of_acts hacts
  have hscripted := scripted_of_followed (hexs ▸ h) hresult hstore
  have hlt {k : Nat} := h.lt_length_iff (k := k)
  have hok {o : FlowOutcome} := result_eq_ok_iff (o := o) h hresult
  have hlength := h.length_le
  refine { hscripted with
    orderId := fun id => orderIn?_eq_some_iff
    sent := ?sent
    completed := ?completed
    aborted := ?aborted
    acts := by rw [hacts, hexs]; rfl
    drafts := ?drafts
    single := ?single }
  all_goals
    rw [hexs]
    generalize orderIn? (first :: exs) = orderId? at hlt hok hlength hacts ⊢
  case sent =>
    intro k hk
    cases orderId? with
    | none =>
      obtain rfl : exs = [] := List.eq_nil_of_length_eq_zero (Nat.le_zero.mp (Nat.le_of_succ_le_succ hlength))
      cases k with
      | zero => exact iff_of_true Nat.zero_lt_one ⟨succeeded_zero, fun h => absurd h (Nat.lt_irrefl 0)⟩
      | succ k => exact iff_of_false (by simp) fun h => by simpa using h.2 k.succ_pos
    | some id => simpa using hlt hk
  case completed =>
    intro steps id?
    rw [hok]
    cases orderId? with
    | none =>
      obtain rfl : exs = [] := List.eq_nil_of_length_eq_zero (Nat.le_zero.mp (Nat.le_of_succ_le_succ hlength))
      exact iff_of_false (by simp [orderEnding]) fun h => not_succeeded_nil (succeeded_cons.mp h.1).2
    | some id => simp [orderEnding, orderScript, orderSteps, eq_comm]
  case aborted =>
    intro label
    rw [hok]
    cases orderId? with
    | none => simp [orderEnding, orderScript, orderSteps, createLabel, eq_comm]
    | some id => exact iff_of_false (by simp [orderEnding]) (by simp)
  case drafts =>
    intro hothers
    rw [hstore.drafts hothers, Course.edits_of_acts hacts]
    cases orderId? <;> rfl
  case single =>
    rintro rfl
    exact Nat.le_antisymm hlength (Nat.succ_pos _)

end

section

variable {σ : Type} {c : Config} {base : Service → String} (hbase : ∀ service, c.baseUrl? service = some (base service))
  (w : World σ) (others : Others σ) (s : Store) (x : σ)

include hbase

theorem orders_runOrder : Orders base (stampAt w others x) s ((runOrder c).amid w others s x) := by
  obtain ⟨first, exs, outcome, hfollowed, hacts, hresult⟩ := course_runOrder hbase w others s x
  exact orders_of_followed hfollowed hacts hresult (Work.accounted_amid w others _ s x)

theorem holds_runInventory : Holds base s ((runInventory c).amid w others s x) := by
  obtain ⟨exs, outcome, hfollowed, hacts, hresult⟩ := course_runInventory hbase w others s x
  have hsent : ((runInventory c).amid w others s x).acts =
      exs.map .ofExchange ++ ([] : List DraftEdit).map .edited ++ ([] : List (Wire × Reply)).map .ofExchange := by
    simpa using hacts
  have hexs : ((runInventory c).amid w others s x).exchanges = exs :=
    (Course.exchanges_of_acts hsent).trans exs.append_nil
  have hstore := Work.accounted_amid w others (runInventory c) s x
  have hok {o : FlowOutcome} := result_eq_ok_iff (o := o) hfollowed hresult
  exact {
    toScripted := scripted_of_followed (hexs ▸ hfollowed) hresult hstore
    sent := fun k hk => by rw [hexs]; exact hfollowed.lt_length_iff hk
    completed := fun steps orderId? => by
      rw [hok, hexs]
      simp [holdScript, eq_comm]
    unaborted := fun label => by simp [hok]
    acts := by rw [hexs]; exact hacts
    drafts := fun hothers => by
      rw [hstore.drafts hothers, Course.edits_of_acts hsent]
      rfl }

/-- Whatever is replied, whatever the clock shows and whatever others do to the drafts meanwhile, a flow follows the
    script of the drafts at its start. -/
theorem scripted_run :
    Orders base (stampAt w others x) s ((Flow.order.run c).amid w others s x) ∧
      Holds base s ((Flow.inventory.run c).amid w others s x) :=
  ⟨orders_runOrder hbase w others s x, holds_runInventory hbase w others s x⟩

end

/-- A world whose clock stands and that replies in turn. -/
def replying (m : Moment) : World (List Reply) where
  send _ replies := (replies.headD (.unreachable ""), replies.tail)
  moment replies := (m, replies)
  say _ replies := replies
  wait _ replies := (0, replies)

/-- Others that set the payment status whenever they have a turn. -/
def setStatus {σ : Type} (status : String) : Others σ := fun x => ([.drafts (.set [(.paymentStatus, status)])], x)

/-- The payment is refused after the order is created and reserved. -/
def refusal : List Reply :=
  [.answer ⟨201, (Json.ofMembers [("OrderID", .text "A-1")]).write, 5⟩, .answer ⟨200, "", 4⟩, .answer ⟨409, "late", 3⟩]

/-- A refused payment ends the flow and leaves the id of the order, and the edits of others. -/
theorem scripted_run_of_refusal :
    let w := replying ⟨1700000000000, 7, "12:00:00"⟩
    let s := Store.load .unwritable
    let course := (Flow.order.run .initial).amid w (setStatus "FAILED") s refusal
    (∀ service, Config.initial.baseUrl? service = some service.localUrl) ∧
      (Orders Service.localUrl (stampAt w (setStatus "FAILED") refusal) s course ∧
        Holds Service.localUrl s ((Flow.inventory.run .initial).amid w (setStatus "FAILED") s refusal)) ∧
      course.result = .error (.http 409 "late") ∧
      course.exchanges.map (fun ex => ex.1.url) =
        ["http://127.0.0.1:8081/orders", "http://127.0.0.1:8081/orders/reserve", "http://127.0.0.1:8081/payments/callback"] ∧
      (course.store.state.drafts.orderId, course.store.state.drafts.paymentStatus) = ("A-1", "FAILED") := by
  intro w s course
  have hbase : ∀ service, Config.initial.baseUrl? service = some service.localUrl := by
    intro service
    cases service <;> decide
  exact ⟨hbase, scripted_run hbase w (setStatus "FAILED") s refusal, by decide +kernel, by decide +kernel, by decide +kernel⟩

end Flow

end TicketDesk
