import TicketDesk.Execution

/-! # Flows

A flow is a fixed series of requests made from the drafts at its start. The first fault ends it, and
what was done is not undone. -/

namespace TicketDesk

/-- A series of requests that is run in one go. -/
inductive Flow where
  /-- Create an order, reserve it, pay it and look it up. -/
  | order
  /-- Place a hold, confirm it and ask what is available. -/
  | inventory
  deriving DecidableEq, Repr

/-- How a flow without a fault ended. -/
inductive FlowOutcome where
  | completed (steps : Nat) (orderId : Option String)
  | aborted (after : String)
  deriving DecidableEq, Repr

namespace Flow

def all : List Flow := [.order, .inventory]

def name : Flow → String
  | .order => "Order Flow"
  | .inventory => "Inventory Flow"

def createLabel : String := "Flow/Create Order"

/-- A key or transaction id made unique by a time. -/
def stamped (text : String) (m : Moment) : String :=
  text ++ "-" ++ String.ofList (Text.showInt m.millis.toInt)

def createRequest (d : Drafts) (m : Moment) : Request :=
  { label := createLabel, call := Request.createOrder (stamped d.idempotencyKey m) d.amountCents }

def orderRequests (d : Drafts) (m : Moment) (orderId : String) : List Request :=
  [{ label := "Flow/Reserve Order", call := Request.reserveOrder orderId },
   { label := "Flow/Payment Callback",
     call := Request.paymentCallback orderId (stamped d.providerTxnId m) d.paymentStatus },
   { label := "Flow/Query Order View", call := Request.queryOrderView orderId }]

def holdRequests (d : Drafts) : List Request :=
  [{ label := "Flow/Try Hold", call := Action.tryHold.call d },
   { label := "Flow/Confirm Hold", call := Action.confirmHold.call d },
   { label := "Flow/Get Availability", call := Action.getAvailability.call d }]

def executeAll (c : Config) : List Request → Work (Except Fault Unit)
  | [] => .done (.ok ())
  | r :: rest => (r.execute c).onSuccess fun _ => executeAll c rest

/-- The id in the answer to the create request that a flow can go on with: an empty one is none. -/
def usableOrderId? (data : Json) : Option String :=
  (createdOrderId? data).filter (· ≠ "")

/-- Creates an order under a fresh key, keeps its id in the drafts, and reserves, pays and queries it. -/
def runOrder (c : Config) : Work (Except Fault FlowOutcome) :=
  .look fun s => .moment fun m =>
    ((createRequest s.drafts m).execute c).onSuccess fun created =>
      match usableOrderId? created with
      | none => .done (.ok (.aborted createLabel))
      | some orderId =>
        .change [.drafts (.keepOrderId orderId)]
          ((executeAll c (orderRequests s.drafts m orderId)).onSuccess fun _ =>
            .done (.ok (.completed 4 (some orderId))))

/-- Places a hold, confirms it and asks what is available. -/
def runInventory (c : Config) : Work (Except Fault FlowOutcome) :=
  .look fun s =>
    (executeAll c (holdRequests s.drafts)).onSuccess fun _ => .done (.ok (.completed 3 none))

def run (c : Config) : Flow → Work (Except Fault FlowOutcome)
  | .order => runOrder c
  | .inventory => runInventory c

end Flow

end TicketDesk
