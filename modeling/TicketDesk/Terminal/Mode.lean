import TicketDesk.Flow
import TicketDesk.Text.Pad

/-! # Modes and rows

A mode says which view is on the screen and who takes the keys. Five of them are tabs; a tab that
offers work has rows, one of which is selected. -/

namespace TicketDesk.Terminal

/-- What the terminal is doing. -/
inductive Mode where
  | login
  | dashboard
  | orders
  | inventory
  | booking
  | history
  | editField
  deriving DecidableEq, Repr

namespace Mode

def name : Mode → String
  | .login => "Login"
  | .dashboard => "Dashboard"
  | .orders => "Orders"
  | .inventory => "Inventory"
  | .booking => "Booking"
  | .history => "History"
  | .editField => "Edit Field"

def tabs : List Mode := [.dashboard, .orders, .inventory, .booking, .history]

def ofTabNumber? : Nat → Option Mode
  | 0 => none
  | n + 1 => tabs[n]?

def isTab (m : Mode) : Bool := tabs.contains m

/-- The tab so many places further on, going round; another mode stays. -/
def tabAfter (m : Mode) (places : Nat) : Mode :=
  match tabs.findIdx? (· == m) with
  | some i => (tabs[(i + places) % tabs.length]?).getD m
  | none => m

end Mode

/-- A row that can be selected. -/
inductive Row where
  | field (f : Field)
  | run (a : Action)
  | runFlow (f : Flow)
  | useCurrentOrderId
  | togglePolling
  | healthSweep
  | healthCheck (service : Service)
  deriving DecidableEq, Repr

namespace Row

def query : List Row :=
  [.field .queryOrderId, .useCurrentOrderId] ++ ActionGroup.query.actions.map .run

def ofMode : Mode → List Row
  | .dashboard => .healthSweep :: Service.all.map .healthCheck
  | .orders =>
    [Field.orderId, .idempotencyKey, .amountCents, .providerTxnId, .paymentStatus].map .field
      ++ ActionGroup.orders.actions.map .run ++ query
  | .inventory =>
    [Field.partitionKey, .holdId, .qty, .capacity].map .field ++ ActionGroup.inventory.actions.map .run
  | .booking => Flow.all.map .runFlow ++ query ++ [.togglePolling]
  | .login => []
  | .history => []
  | .editField => []

/-- The text of a row; a field shows its value. -/
def label (d : Drafts) (polling : Bool) : Row → String
  | .field f => Text.padRight 16 f.name ++ " " ++ d.get f
  | .run a => "▶ " ++ a.label
  | .runFlow f => "▶ Run " ++ f.name
  | .useCurrentOrderId => "⇢ Use current order id"
  | .togglePolling => if polling then "■ Stop polling" else "● Start polling"
  | .healthSweep => "▶ Check all services"
  | .healthCheck service => "▶ Check " ++ service.label

end Row

end TicketDesk.Terminal
