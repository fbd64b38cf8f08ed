import TicketDesk.Fault

/-! # Calls and answers

A call names a service, a method, a path with its query and maybe a JSON body. An answer of the
backend is read for what it is: nothing is `null`, JSON is parsed, and any other text is kept. -/

namespace TicketDesk

/-- A request to a service. -/
structure Call where
  service : Service
  method : Method
  path : String
  body : Option Json

namespace Call

def get (service : Service) (path : String) : Call := ⟨service, .get, path, none⟩

def post (service : Service) (path : String) (body : Json) : Call := ⟨service, .post, path, some body⟩

def bodyMember : Option Json → List (String × Json)
  | some body => [("body", body)]
  | none => []

/-- The record as a value; a call without a body has no such member. -/
def toJson (c : Call) : Json :=
  .object ([("service", .text c.service.name), ("method", .text c.method.name), ("path", .text c.path)]
    ++ bodyMember c.body)

/-- Reads the record; a `null` body is none. -/
def decoder : Json.Decoder Call :=
  .record ["service", "method", "path", "body"] fun depth fields => do
    return {
      service := ← fields.required "service" Service.decoder depth
      method := ← fields.required "method" Method.decoder depth
      path := ← fields.required "path" .text depth
      body := ← fields.default "body" (.nullable .value) depth none }

/-- The text that goes out as the body of a call: only a post carries one. -/
def sentBody (c : Call) : Option String :=
  match c.method with
  | .post => c.body.map Json.write
  | .get => none

end Call

def isSuccess (status : UInt16) : Bool := 200 ≤ status && status < 300

/-- What an answer says: nothing is `null`, JSON is its value, other text is a text. -/
def parseBody (text : String) : Json :=
  if text = "" then .null
  else (Json.read? text).getD (.text text)

def renderBody : Json → String
  | .text s => s
  | v => v.write

/-- The order id in the answer to a create call: the text under `OrderID`, or the compact JSON of what
    else stands there. -/
def createdOrderId? (data : Json) : Option String :=
  (data.member? "OrderID").map renderBody

end TicketDesk
