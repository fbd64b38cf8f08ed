import TicketDesk.Call
import TicketDesk.Drafts
import TicketDesk.Text.Percent

/-! # Requests and actions

A request is a call under a label, and maybe what to do with the data of a success. The actions are
the single requests that the console makes from the drafts. -/

namespace TicketDesk

/-- What to do with the data of a successful request. -/
inductive Hook where
  /-- Keep the id of the created order as the draft order id. -/
  | captureOrderId
  deriving DecidableEq, Repr

/-- The drafts after a hook; data without an order id leaves them as they are. -/
def Hook.apply (data : Json) (d : Drafts) : Hook → Drafts
  | .captureOrderId =>
    match createdOrderId? data with
    | some id => { d with orderId := id }
    | none => d

/-- A call to make under a label. -/
structure Request where
  label : String
  call : Call
  hook : Option Hook := none

namespace Request

def createOrderBody (idempotencyKey : String) (amountCents : Int64) : Json :=
  .ofMembers [("idempotency_key", .text idempotencyKey), ("amount_cents", .ofInt64 amountCents)]

def createOrder (idempotencyKey : String) (amountCents : Int64) : Call :=
  .post .order "/orders" (createOrderBody idempotencyKey amountCents)

def reserveOrder (orderId : String) : Call :=
  .post .order "/orders/reserve" (.ofMembers [("order_id", .text orderId)])

def paymentCallback (orderId providerTxnId status : String) : Call :=
  .post .order "/payments/callback"
    (.ofMembers [("order_id", .text orderId), ("provider_txn_id", .text providerTxnId), ("status", .text status)])

def getOrder (orderId : String) : Call :=
  .get .order ("/orders/get?order_id=" ++ Text.encodeComponent orderId)

def queryOrderView (orderId : String) : Call :=
  .get .query ("/query/orders?order_id=" ++ Text.encodeComponent orderId)

def tryHold (d : Drafts) : Call :=
  .post .inventory "/inventory/try-hold"
    (.ofMembers [("partition_key", .text d.partitionKey), ("hold_id", .text d.holdId),
      ("qty", .ofInt64 d.qty), ("capacity", .ofInt64 d.capacity)])

def placedHold (path : String) (d : Drafts) : Call :=
  .post .inventory path (.ofMembers [("partition_key", .text d.partitionKey), ("hold_id", .text d.holdId)])

def availability (partitionKey : String) : Call :=
  .get .inventory ("/inventory/availability?partition_key=" ++ Text.encodeComponent partitionKey)

def pollLabel : String := "Poll Query Order View"

def poll? (orderId : String) : Option Request :=
  if orderId = "" then none else some { label := pollLabel, call := queryOrderView orderId }

end Request

/-- A single request that the console can make from the drafts. -/
inductive Action where
  | createOrder
  | reserveOrder
  | paymentCallback
  | getOrder
  | queryOrderView
  | tryHold
  | releaseHold
  | confirmHold
  | getAvailability
  | healthz (service : Service)
  deriving DecidableEq, Repr

namespace Action

def label : Action → String
  | .createOrder => "Create Order"
  | .reserveOrder => "Reserve Order"
  | .paymentCallback => "Payment Callback"
  | .getOrder => "Get Order"
  | .queryOrderView => "Query Order View"
  | .tryHold => "Try Hold"
  | .releaseHold => "Release Hold"
  | .confirmHold => "Confirm Hold"
  | .getAvailability => "Get Availability"
  | .healthz service => service.label ++ " /healthz"

def call (d : Drafts) : Action → Call
  | .createOrder => Request.createOrder d.idempotencyKey d.amountCents
  | .reserveOrder => Request.reserveOrder d.orderId
  | .paymentCallback => Request.paymentCallback d.orderId d.providerTxnId d.paymentStatus
  | .getOrder => Request.getOrder d.orderId
  | .queryOrderView => Request.queryOrderView d.queryOrderId
  | .tryHold => Request.tryHold d
  | .releaseHold => Request.placedHold "/inventory/release-hold" d
  | .confirmHold => Request.placedHold "/inventory/confirm-hold" d
  | .getAvailability => Request.availability d.partitionKey
  | .healthz service => .get service "/healthz"

def hook : Action → Option Hook
  | .createOrder => some .captureOrderId
  | _ => none

def request (a : Action) (d : Drafts) : Request :=
  { label := a.label, call := a.call d, hook := a.hook }

end Action

/-- A group of actions that a view offers together. -/
inductive ActionGroup where
  | orders
  | inventory
  | query
  deriving DecidableEq, Repr

namespace ActionGroup

def all : List ActionGroup := [.orders, .inventory, .query]

def actions : ActionGroup → List Action
  | .orders => [.createOrder, .reserveOrder, .paymentCallback, .getOrder]
  | .inventory => [.tryHold, .releaseHold, .confirmHold, .getAvailability]
  | .query => [.queryOrderView]

end ActionGroup

end TicketDesk
