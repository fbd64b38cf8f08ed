import TicketDesk.Json.Record

/-! # Services and methods

The six services of the ticketing backend, in the order in which a sweep checks them, and the HTTP
methods of the calls to them. -/

namespace TicketDesk

/-- A service of the backend. -/
inductive Service where
  | gateway
  | order
  | inventory
  | query
  | worker
  | nginx
  deriving DecidableEq, Repr

namespace Service

def all : List Service := [.gateway, .order, .inventory, .query, .worker, .nginx]

/-- The key of a service in files and on the command line. -/
def name : Service → String
  | .gateway => "gateway"
  | .order => "order"
  | .inventory => "inventory"
  | .query => "query"
  | .worker => "worker"
  | .nginx => "nginx"

/-- The name of a service shown beside its health. -/
def label : Service → String
  | .gateway => "gateway"
  | .order => "order-service"
  | .inventory => "inventory-service"
  | .query => "query-service"
  | .worker => "ticket-worker"
  | .nginx => "gateway-nginx"

def ofName? (s : String) : Option Service :=
  all.find? fun service => service.name == s

theorem mem_all (s : Service) : s ∈ all := by
  cases s <;> decide

theorem ofName?_name (s : Service) : ofName? s.name = some s := by
  cases s <;> decide

def decoder : Json.Decoder Service := Json.Decoder.name ofName?

end Service

/-- An HTTP method. -/
inductive Method where
  | get
  | post
  deriving DecidableEq, Repr

namespace Method

def name : Method → String
  | .get => "GET"
  | .post => "POST"

def ofName? : String → Option Method
  | "GET" => some .get
  | "POST" => some .post
  | _ => none

/-- The method that a user names, in upper or lower ASCII case. -/
def ofUserText? (s : String) : Option Method :=
  ofName? (String.ofList (s.toList.map Char.toUpper))

theorem ofName?_name (m : Method) : ofName? m.name = some m := by
  cases m <;> decide

def decoder : Json.Decoder Method := Json.Decoder.name ofName?

end Method

end TicketDesk
