import TicketDesk.Health
import TicketDesk.History
import TicketDesk.Session

/-! # The store

The state of the console is session, drafts, history, last result and health board. Every update ends
in the commit of one slice of it, which everyone who listens is told of. The first to listen saves session,
drafts and history to a backend that holds one text per key. A write may fail, and may leave anything of its
text when it does; what it says of itself is not asked for, and the state goes on. Opening a store reads the
three texts, each on its own, and falls back to the initial slice where a text is absent or does not decode. -/

namespace TicketDesk

/-- What the console shows of the last answer. -/
structure LastResult where
  title : String
  data : Json
  status : Option UInt16
  durationMs : Option UInt64

def LastResult.initial : LastResult :=
  ⟨"Ready", .ofMembers [("message", .text "Welcome. Please execute an action.")], none, none⟩

/-- The state of the console. -/
structure State where
  session : Option Session
  drafts : Drafts
  history : History
  result : LastResult
  health : Board

/-- A part of the state that is committed on its own. -/
inductive Slice where
  | session
  | drafts
  | history
  | result
  | health
  deriving DecidableEq, Repr

def Slice.name : Slice → String
  | .session => "Session"
  | .drafts => "Drafts"
  | .history => "History"
  | .result => "Result"
  | .health => "Health"

/-- The key of a persisted slice. -/
inductive Key where
  | session
  | history
  | drafts
  deriving DecidableEq, Repr

namespace Key

def all : List Key := [.session, .history, .drafts]

def name : Key → String
  | .session => "ticketing.console.session"
  | .history => "ticketing.console.history"
  | .drafts => "ticketing.console.drafts"

def fileName (k : Key) : String := k.name ++ ".json"

end Key

abbrev Blobs := Key → Option String

/-- Where the persisted slices are kept. -/
structure Backend where
  /-- The text of each key. -/
  blobs : Blobs
  /-- Whether the write with this number does what it should: it succeeds, and changes the text of its key only. -/
  accepts : Nat → Bool
  /-- How many writes there have been. -/
  writes : Nat := 0
  /-- What the write of a text that does not do so says of itself, and the texts that it leaves. -/
  mishap : Nat → Key → String → Blobs → Except Fault Unit × Blobs := fun _ _ _ blobs => (.error (.io ""), blobs)

namespace Backend

def reliable (blobs : Blobs) : Backend := { blobs := blobs, accepts := fun _ => true }

/-- A backend without texts whose writes all fail, and leave it as it is. -/
def unwritable : Backend := { blobs := fun _ => none, accepts := fun _ => false }

/-- Writes the text of a key: what the write says of itself, and the backend after it. -/
def write (b : Backend) (key : Key) (blob : String) : Except Fault Unit × Backend :=
  let written : Except Fault Unit × Blobs :=
    if b.accepts b.writes then (.ok (), fun k => if k = key then some blob else b.blobs k)
    else b.mishap b.writes key blob b.blobs
  (written.1, { b with blobs := written.2, writes := b.writes + 1 })

/-- Writes the text of a key, however that goes. -/
def save (b : Backend) (key : Key) (blob : String) : Backend := (b.write key blob).2

end Backend

namespace State

/-- The key under which a slice is persisted, and its text. -/
def blob? (s : State) : Slice → Option (Key × String)
  | .session => some (.session, (match s.session with | some x => x.toJson | none => .null).write)
  | .drafts => some (.drafts, s.drafts.toJson.write)
  | .history => some (.history, s.history.toJson.write)
  | .result => none
  | .health => none

/-- The session that a text holds; none when the text is absent or holds no session. -/
def loadSession (blob : Option String) : Option Session :=
  (blob.bind (Json.decode? (.nullable Session.decoder))).join

/-- The log that a text holds; empty when the text is absent or holds none. -/
def loadHistory (blob : Option String) : History :=
  .ofEntries ((blob.bind (Json.decode? History.decoder)).getD [])

/-- The drafts that a text holds; the initial ones when the text is absent or holds none. -/
def loadDrafts (blob : Option String) : Drafts :=
  (blob.bind (Json.decode? Drafts.decoder)).getD {}

def ofBlobs (blobs : Blobs) : State :=
  { session := loadSession (blobs .session)
    drafts := loadDrafts (blobs .drafts)
    history := loadHistory (blobs .history)
    result := .initial
    health := .initial }

end State

/-- Saves a slice that is committed, when it has a text. -/
def Backend.onCommit (b : Backend) (s : State) (slice : Slice) : Backend :=
  match s.blob? slice with
  | some (key, blob) => b.save key blob
  | none => b

/-- An edit of the drafts. -/
inductive DraftEdit where
  /-- Sets fields from texts, one by one, up to the first that is refused. -/
  | set (values : List (Field × String))
  /-- Makes the current order the one to query. -/
  | useCurrentOrderId
  /-- Applies a hook to the data of an answer. -/
  | capture (hook : Hook) (data : Json)
  /-- Keeps the id of an order. -/
  | keepOrderId (id : String)

/-- The drafts after an edit, and what the edit says of itself. -/
def DraftEdit.apply (d : Drafts) : DraftEdit → Drafts × Except Fault Unit
  | .set values => d.setAll values
  | .useCurrentOrderId => (d.useCurrentOrderId, .ok ())
  | .capture hook data => (hook.apply data d, .ok ())
  | .keepOrderId id => ({ d with orderId := id }, .ok ())

/-- An update of the state. -/
inductive Update where
  | session (s : Option Session)
  | drafts (edit : DraftEdit)
  | record (e : Entry)
  | clearHistory
  | result (r : LastResult)
  | health (service : Service) (health : Health)

namespace Update

def slice : Update → Slice
  | .session _ => .session
  | .drafts _ => .drafts
  | .record _ => .history
  | .clearHistory => .history
  | .result _ => .result
  | .health _ _ => .health

def apply (s : State) : Update → State
  | .session x => { s with session := x }
  | .drafts edit => { s with drafts := (edit.apply s.drafts).1 }
  | .record e => { s with history := s.history.record e }
  | .clearHistory => { s with history := .empty }
  | .result r => { s with result := r }
  | .health service h => { s with health := s.health.set service h }

/-- What an update says of itself: an edit of the drafts may be refused, and is committed even then. -/
def reply (s : State) : Update → Except Fault Unit
  | .drafts edit => (edit.apply s.drafts).2
  | _ => .ok ()

end Update

/-- The state together with where it is kept, and the commits that were told of, newest first. -/
structure Store where
  state : State
  backend : Backend
  commits : List Slice

namespace Store

def load (b : Backend) : Store := ⟨.ofBlobs b.blobs, b, []⟩

/-- Tells everyone who listens of a commit, first of all the backend. -/
def commit (s : Store) (slice : Slice) : Store :=
  { s with backend := s.backend.onCommit s.state slice, commits := slice :: s.commits }

def update (s : Store) (u : Update) : Store :=
  { s with state := u.apply s.state }.commit u.slice

def updateAll (s : Store) (us : List Update) : Store := us.foldl update s

end Store

end TicketDesk
