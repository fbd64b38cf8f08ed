import TicketDesk.Fault
import TicketDesk.Text.Blank

/-! # Drafts

The values that the forms of the console hold and that requests are made of. A text field takes any
text; a number field takes a whole number of 64 bits with blanks around it. -/

namespace TicketDesk

/-- The draft values. -/
structure Drafts where
  orderId : String := ""
  idempotencyKey : String := "demo-key-1"
  amountCents : Int64 := 10000
  providerTxnId : String := "txn-demo-1"
  paymentStatus : String := "SUCCESS"
  queryOrderId : String := ""
  partitionKey : String := "G123|2026-02-11|2nd"
  holdId : String := "hold-demo-1"
  qty : Int64 := 1
  capacity : Int64 := 200
  deriving DecidableEq

/-- The name of a draft value. -/
inductive Field where
  | orderId
  | idempotencyKey
  | amountCents
  | providerTxnId
  | paymentStatus
  | queryOrderId
  | partitionKey
  | holdId
  | qty
  | capacity
  deriving DecidableEq, Repr

namespace Field

def all : List Field :=
  [.orderId, .idempotencyKey, .amountCents, .providerTxnId, .paymentStatus, .queryOrderId,
   .partitionKey, .holdId, .qty, .capacity]

/-- A field as it is named in files, messages and on the command line. -/
def name : Field → String
  | .orderId => "order_id"
  | .idempotencyKey => "idempotency_key"
  | .amountCents => "amount_cents"
  | .providerTxnId => "provider_txn_id"
  | .paymentStatus => "payment_status"
  | .queryOrderId => "query_order_id"
  | .partitionKey => "partition_key"
  | .holdId => "hold_id"
  | .qty => "qty"
  | .capacity => "capacity"

def ofName? (s : String) : Option Field :=
  all.find? fun field => field.name == s

def isNumeric : Field → Bool
  | .amountCents => true
  | .qty => true
  | .capacity => true
  | _ => false

theorem mem_all (f : Field) : f ∈ all := by
  cases f <;> decide

theorem ofName?_name (f : Field) : ofName? f.name = some f := by
  cases f <;> decide

end Field

namespace Drafts

instance : Inhabited Drafts := ⟨{}⟩

def showWord (n : Int64) : String := String.ofList (Text.showInt n.toInt)

def get (d : Drafts) : Field → String
  | .orderId => d.orderId
  | .idempotencyKey => d.idempotencyKey
  | .amountCents => showWord d.amountCents
  | .providerTxnId => d.providerTxnId
  | .paymentStatus => d.paymentStatus
  | .queryOrderId => d.queryOrderId
  | .partitionKey => d.partitionKey
  | .holdId => d.holdId
  | .qty => showWord d.qty
  | .capacity => showWord d.capacity

def number (field : Field) (value : String) : Except Fault Int64 :=
  match Text.int64? (Text.trimBlanks value.toList) with
  | some n => .ok n
  | none => .error (.notWholeNumber field.name value)

def set (d : Drafts) (field : Field) (value : String) : Except Fault Drafts :=
  match field with
  | .orderId => .ok { d with orderId := value }
  | .idempotencyKey => .ok { d with idempotencyKey := value }
  | .amountCents => (number field value).map fun n => { d with amountCents := n }
  | .providerTxnId => .ok { d with providerTxnId := value }
  | .paymentStatus => .ok { d with paymentStatus := value }
  | .queryOrderId => .ok { d with queryOrderId := value }
  | .partitionKey => .ok { d with partitionKey := value }
  | .holdId => .ok { d with holdId := value }
  | .qty => (number field value).map fun n => { d with qty := n }
  | .capacity => (number field value).map fun n => { d with capacity := n }

/-- The drafts after setting fields one by one, up to the first text that is refused. -/
def setAll (d : Drafts) : List (Field × String) → Drafts × Except Fault Unit
  | [] => (d, .ok ())
  | (field, value) :: rest =>
    match d.set field value with
    | .ok d => d.setAll rest
    | .error e => (d, .error e)

def useCurrentOrderId (d : Drafts) : Drafts := { d with queryOrderId := d.orderId }

def toJson (d : Drafts) : Json :=
  .object
    [(Field.orderId.name, .text d.orderId), (Field.idempotencyKey.name, .text d.idempotencyKey),
     (Field.amountCents.name, .ofInt64 d.amountCents), (Field.providerTxnId.name, .text d.providerTxnId),
     (Field.paymentStatus.name, .text d.paymentStatus), (Field.queryOrderId.name, .text d.queryOrderId),
     (Field.partitionKey.name, .text d.partitionKey), (Field.holdId.name, .text d.holdId),
     (Field.qty.name, .ofInt64 d.qty), (Field.capacity.name, .ofInt64 d.capacity)]

/-- Reads the record; a missing field has its default. -/
def decoder : Json.Decoder Drafts :=
  .record (Field.all.map Field.name) fun depth fields => do
    let text (field : Field) (fallback : String) := fields.default field.name .text depth fallback
    let word (field : Field) (fallback : Int64) := fields.default field.name .int64 depth fallback
    let initial : Drafts := {}
    return {
      orderId := ← text .orderId initial.orderId
      idempotencyKey := ← text .idempotencyKey initial.idempotencyKey
      amountCents := ← word .amountCents initial.amountCents
      providerTxnId := ← text .providerTxnId initial.providerTxnId
      paymentStatus := ← text .paymentStatus initial.paymentStatus
      queryOrderId := ← text .queryOrderId initial.queryOrderId
      partitionKey := ← text .partitionKey initial.partitionKey
      holdId := ← text .holdId initial.holdId
      qty := ← word .qty initial.qty
      capacity := ← word .capacity initial.capacity }

end Drafts

end TicketDesk
