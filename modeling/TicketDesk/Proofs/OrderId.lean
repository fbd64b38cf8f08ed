import TicketDesk.Proofs.Json.RoundTrip
import TicketDesk.Proofs.Work.Course
import TicketDesk.Proofs.Work.Frame

/-! # The id of a created order

An order is created by an action or by a flow, and both keep the id that the answer carries in the drafts. The action
keeps whatever stands under `OrderID`, as text, while the flow takes an empty text for no id. So the two leave the same
order id whatever else the answer says, and part on an empty one, for which the action clears the order id and the
flow leaves it. -/

namespace TicketDesk

/-! ### Ids -/

theorem renderBody_eq_empty_iff {v : Json} : renderBody v = "" ↔ v = .text "" := by
  cases v with
  | text s => simp [renderBody]
  | _ => exact iff_of_false (Json.write_ne_empty _) (by simp)

/-- The id in an answer is the empty text just when that is what stands there. -/
theorem createdOrderId?_eq_some_empty_iff {data : Json} :
    createdOrderId? data = some "" ↔ data.member? "OrderID" = some (.text "") := by
  simp [createdOrderId?, renderBody_eq_empty_iff]

theorem Flow.usableOrderId?_of_empty {data : Json} (h : createdOrderId? data = some "") : usableOrderId? data = none := by
  simp [usableOrderId?, h]

theorem Flow.usableOrderId?_of_ne_empty {data : Json} (h : createdOrderId? data ≠ some "") :
    usableOrderId? data = createdOrderId? data := by
  cases hid : createdOrderId? data with
  | none => rw [usableOrderId?, hid]; rfl
  | some id =>
    have hne : id ≠ "" := fun he => h (he ▸ hid)
    simp [usableOrderId?, hid, hne]

/-! ### One answer -/

namespace Work

variable {σ α : Type}

/-- The store once the first request of a program is answered and the program has come to its next request, or to its
    end. -/
def onceAnswered (w : World σ) (a : Answer) (work : Work α) (s : Store) (x : σ) : Store :=
  match work.toSend w s x with
  | (.send _ next, s, x) => ((next (.answer a)).toSend w s x).2.1
  | (_, s, _) => s

end Work

section

variable {σ : Type} {c : Config} {base : String} (w : World σ) (a : Answer) (s : Store) (x : σ)

theorem Action.drafts_onceAnswered (hb : c.baseUrl? .order = some base) (hok : isSuccess a.status = true) :
    ((createOrder.perform c).onceAnswered w a s x).state.drafts = s.state.drafts.withOrder (createdOrderId? a.data) := by
  have hr : c.baseUrl? (createOrder.request s.state.drafts).call.service = some base := hb
  have hconclude : (createOrder.request s.state.drafts).conclude a =
      .change [.drafts (.capture .captureOrderId a.data)] (.done (.ok a.data)) := by
    rw [Request.conclude, if_pos hok]
    rfl
  rw [Work.onceAnswered, perform, Work.toSend, Request.execute_of_base hr, Work.toSend]
  dsimp only
  rw [Request.settle, hconclude]
  show Hook.apply a.data s.state.drafts .captureOrderId = _
  rw [Hook.apply]
  cases createdOrderId? a.data <;> rfl

/-- Once an order is created the flow keeps its id before anything else is sent. -/
theorem Flow.drafts_toSend_afterCreate (hb : c.baseUrl? .order = some base) (d : Drafts) (m : Moment) (data : Json) :
    ((afterCreate c d m data).toSend w s x).2.1.state.drafts = s.state.drafts.withOrder (usableOrderId? data) := by
  rw [afterCreate]
  cases usableOrderId? data with
  | none => rfl
  | some id =>
    have hreserve := Request.execute_of_base (r := { label := "Flow/Reserve Order", call := Request.reserveOrder id }) hb
    simp only [orderRequests, executeAll, Work.onSuccess, hreserve, Work.bind, Work.toSend]
    rfl

theorem Flow.drafts_onceAnswered (hb : c.baseUrl? .order = some base) (hok : isSuccess a.status = true) :
    ((runOrder c).onceAnswered w a s x).state.drafts = s.state.drafts.withOrder (usableOrderId? a.data) := by
  let m := (w.moment x).1
  have hr : c.baseUrl? (createRequest s.state.drafts m).call.service = some base := hb
  have hconclude : (createRequest s.state.drafts m).conclude a = .done (.ok a.data) := by
    rw [Request.conclude, if_pos hok]
    rfl
  rw [Work.onceAnswered, runOrder_eq, Work.toSend, Work.toSend, Request.execute_of_base hr]
  simp only [Work.onSuccess, Work.bind, Work.toSend, Request.settle]
  rw [hconclude]
  exact drafts_toSend_afterCreate w _ _ hb s.state.drafts m a.data

end

/-! ### The two ways -/

/-- What an answer to the creation of an order leaves in the drafts, by the action and by the flow. -/
structure KeptFrom (data : Json) (before action flow : Drafts) : Prop where
  byAction : action = before.withOrder (createdOrderId? data)
  byFlow : flow = before.withOrder (Flow.usableOrderId? data)
  alike : action.orderId = flow.orderId ↔ data.member? "OrderID" ≠ some (.text "") ∨ before.orderId = ""
  /-- An answer in which the flow finds no id leaves the drafts as they are, on both ways if it is not the empty one. -/
  unusable : Flow.usableOrderId? data = none →
    flow = before ∧ (data.member? "OrderID" ≠ some (.text "") → action = before)

theorem kept_of_answer (data : Json) (before : Drafts) :
    KeptFrom data before (before.withOrder (createdOrderId? data)) (before.withOrder (Flow.usableOrderId? data)) := by
  by_cases hempty : createdOrderId? data = some ""
  · have hmember := createdOrderId?_eq_some_empty_iff.mp hempty
    have hnone := Flow.usableOrderId?_of_empty hempty
    exact {
      byAction := rfl
      byFlow := rfl
      alike := by
        rw [hempty, hnone]
        exact ⟨fun h => Or.inr h.symm, fun h => (h.resolve_left fun hne => hne hmember).symm⟩
      unusable := fun _ => ⟨by rw [hnone]; rfl, fun hne => absurd hmember hne⟩ }
  · have hsame := Flow.usableOrderId?_of_ne_empty hempty
    exact {
      byAction := rfl
      byFlow := rfl
      alike := iff_of_true (by rw [hsame]) (Or.inl (mt createdOrderId?_eq_some_empty_iff.mpr hempty))
      unusable := fun hnone => ⟨by rw [hnone]; rfl, fun _ => by rw [← hsame, hnone]; rfl⟩ }

/-- Whatever the body of a 2xx answer to the creation of an order, the action and the flow keep the same id from it
    unless it is the empty text. -/
theorem kept_created {σ τ : Type} {c : Config} {base : String} (hb : c.baseUrl? .order = some base) (w : World σ)
    (w' : World τ) (s : Store) (x : σ) (y : τ) {a a' : Answer} (ha : 200 ≤ a.status ∧ a.status < 300)
    (ha' : 200 ≤ a'.status ∧ a'.status < 300) (hbody : a'.body = a.body) :
    KeptFrom (parseBody a.body) s.state.drafts ((Action.createOrder.perform c).onceAnswered w a s x).state.drafts
      ((Flow.runOrder c).onceAnswered w' a' s y).state.drafts := by
  have hdata : a'.data = parseBody a.body := congrArg parseBody hbody
  rw [Action.drafts_onceAnswered w a s x hb (Request.isSuccess_iff.mpr ha),
    Flow.drafts_onceAnswered w' a' s y hb (Request.isSuccess_iff.mpr ha'), hdata]
  exact kept_of_answer (parseBody a.body) s.state.drafts

/-- A console whose drafts have the order id of an earlier order, and which hears no more after its first answer. -/
def KeptFrom.earlier : Store := (Store.load .unwritable).update (.drafts (.keepOrderId "earlier"))

def KeptFrom.silence : World Unit := .saying (.unreachable "") ⟨1700000000000, 7, "12:00:00"⟩ 0

def KeptFrom.created (id : Json) : Answer := ⟨201, (Json.ofMembers [("OrderID", id)]).write, 5⟩

open KeptFrom in
/-- An id that is `null` is kept as that text on both ways. -/
theorem kept_created_null :
    let a := created .null
    let acted := (Action.createOrder.perform .initial).onceAnswered silence a earlier ()
    let flowed := (Flow.runOrder .initial).onceAnswered silence a earlier ()
    (Config.initial.baseUrl? .order = some "http://127.0.0.1:8081" ∧ 200 ≤ a.status ∧ a.status < 300) ∧
      KeptFrom (parseBody a.body) earlier.state.drafts acted.state.drafts flowed.state.drafts ∧
      acted.state.drafts.orderId = "null" ∧ flowed.state.drafts.orderId = "null" := by
  intro a acted flowed
  have hb : Config.initial.baseUrl? .order = some "http://127.0.0.1:8081" := by decide
  have ha : 200 ≤ a.status ∧ a.status < 300 := by decide
  exact ⟨⟨hb, ha⟩, kept_created hb silence silence earlier () () ha ha rfl, by decide +kernel, by decide +kernel⟩

open KeptFrom in
/-- After an answer with an empty id the action has cleared the order id, and the flow has left it. -/
theorem empty_id_parts :
    let a := created (.text "")
    ((Action.createOrder.perform .initial).onceAnswered silence a earlier ()).state.drafts.orderId = "" ∧
      ((Flow.runOrder .initial).onceAnswered silence a earlier ()).state.drafts.orderId = "earlier" := by
  intro a
  constructor <;> decide +kernel

end TicketDesk
