import TicketDesk.Request

/-! # History

One entry for each answered request, newest first. A log keeps the hundred newest entries; an entry
can be replayed as it was sent. -/

namespace TicketDesk

/-- What the clock, the stopwatch and the random source say when an answer comes in. -/
structure Moment where
  /-- Milliseconds since the epoch. -/
  millis : Int64
  /-- A random word that tells apart the entries of one millisecond. -/
  random : UInt32
  /-- The local time of day. -/
  timeOfDay : String
  deriving DecidableEq

/-- An answer of the backend and how long it took, in milliseconds. -/
structure Answer where
  status : UInt16
  body : String
  durationMs : UInt64
  deriving DecidableEq

def Answer.data (a : Answer) : Json := parseBody a.body

/-- A request that was answered. -/
structure Entry where
  id : String
  timeOfDay : String
  label : String
  service : Service
  method : Method
  path : String
  body : Option Json
  ok : Bool
  status : UInt16
  durationMs : UInt64

namespace Entry

def freshId (m : Moment) : String :=
  String.ofList (Text.showInt m.millis.toInt ++ '-' :: Text.showNat m.random.toNat)

def record (label : String) (call : Call) (answer : Answer) (m : Moment) : Entry :=
  { id := freshId m, timeOfDay := m.timeOfDay, label := label, service := call.service, method := call.method,
    path := call.path, body := call.body, ok := isSuccess answer.status, status := answer.status,
    durationMs := answer.durationMs }

def call (e : Entry) : Call := ⟨e.service, e.method, e.path, e.body⟩

/-- What is added to the label of a request that is made again. -/
def replaySuffix : String := " (replay)"

def replay (e : Entry) : Request := { label := e.label ++ replaySuffix, call := e.call }

def summary (e : Entry) : String :=
  e.timeOfDay ++ " " ++ e.method.name ++ " " ++ e.path ++ " (" ++ e.service.name ++ ") HTTP "
    ++ String.ofList (Text.showNat e.status.toNat) ++ " " ++ String.ofList (Text.showNat e.durationMs.toNat) ++ "ms"

/-- The record as a value; an entry without a body has no such member. -/
def toJson (e : Entry) : Json :=
  .object
    ([("id", .text e.id), ("at", .text e.timeOfDay), ("label", .text e.label), ("service", .text e.service.name),
      ("method", .text e.method.name), ("path", .text e.path)]
      ++ Call.bodyMember e.body
      ++ [("ok", .bool e.ok), ("status", .ofUInt16 e.status), ("duration_ms", .ofUInt64 e.durationMs)])

def fieldNames : List String :=
  ["id", "at", "label", "service", "method", "path", "body", "ok", "status", "duration_ms"]

/-- Reads the record; a body that is there is a body, even when it is `null`. -/
def decoder : Json.Decoder Entry :=
  .record fieldNames fun depth fields => do
    return {
      id := ← fields.required "id" .text depth
      timeOfDay := ← fields.required "at" .text depth
      label := ← fields.required "label" .text depth
      service := ← fields.required "service" Service.decoder depth
      method := ← fields.required "method" Method.decoder depth
      path := ← fields.required "path" .text depth
      body := ← fields.default "body" (fun d w => (Json.Decoder.value d w).map some) depth none
      ok := ← fields.required "ok" .bool depth
      status := ← fields.required "status" .uint16 depth
      durationMs := ← fields.required "duration_ms" .uint64 depth }

end Entry

/-- A log of entries, newest first. -/
structure History where
  entries : List Entry

namespace History

def capacity : Nat := 100

def empty : History := ⟨[]⟩

def ofEntries (entries : List Entry) : History := ⟨entries.take capacity⟩

/-- The log with a further entry; the oldest is dropped when it is full. -/
def record (h : History) (e : Entry) : History := ⟨(e :: h.entries).take capacity⟩

def latest? (h : History) : Option Entry := h.entries.head?

/-- The entry that a text refers to: the newest with this id, or else the one at this position, counted
    from one at the newest. -/
def find? (h : History) (reference : String) : Option Entry :=
  match h.entries.find? fun e => e.id == reference with
  | some e => some e
  | none =>
    match Text.natBelow? UInt64.size reference.toList with
    | some (position + 1) => h.entries[position]?
    | _ => none

def toJson (h : History) : Json := .array (h.entries.map Entry.toJson)

def decoder : Json.Decoder (List Entry) := .list Entry.decoder

end History

end TicketDesk
