import TicketDesk.CommandLine.Grammar
import TicketDesk.Flow

/-! # Commands

What can be asked for on the command line: the options that every command takes, and one command, which
may have a second word. -/

namespace TicketDesk.CommandLine

/-- What is asked for. -/
inductive Command where
  | tui
  | login (username password : String)
  | logout
  | whoami
  | exec (service : Service) (method : Method) (path : String) (body label : Option String)
  /-- An action on drafts that are edited first. -/
  | act (action : Action) (edits : List (Field × String))
  | queryOrder (orderId : Option String) (useCurrent : Bool)
  | flow (flow : Flow)
  | health (service : Option Service)
  | listHistory (limit : Option Nat)
  | showEntry (reference : String)
  | clearHistory
  | replayEntry (reference : String)
  | showDrafts
  | setDraft (field : Field) (value : String)
  | watch (count : Option Nat)
  deriving DecidableEq

/-- A command line. -/
structure Invocation where
  config : Option String := none
  stateDir : Option String := none
  ephemeral : Bool := false
  command : Option Command := none
  deriving DecidableEq

/-! ### Levels -/

def option (name : String) (kind : Kind) : Parameter := { name := name, kind := kind }

def lettered (letter : Char) (name : String) (kind : Kind) : Parameter :=
  { name := name, kind := kind, letter := some letter }

def place (name : String) (kind : Kind) : Parameter := { name := name, kind := kind, isRequired := true }

def common : List Parameter :=
  [option "config" .path, option "state-dir" .path, option "ephemeral" .switch, lettered 'h' "help" .help]

def leaf (options places : List Parameter) : Level := { options := options ++ common, places := places }

def family (words : List String) : Level :=
  { options := common, commands := words ++ ["help"], needsCommand := true }

/-- The first words, each with the second words it may have. -/
def families : List (String × List String) :=
  [("tui", []), ("login", []), ("logout", []), ("whoami", []), ("exec", []),
   ("order", ["create", "reserve", "pay", "get"]),
   ("inventory", ["try-hold", "release", "confirm", "availability"]), ("query", ["order"]),
   ("flow", ["order", "inventory"]), ("health", []), ("history", ["list", "show", "clear", "replay"]),
   ("draft", ["show", "set"]), ("watch", [])]

/-- What may stand before the first word. -/
def root : Level :=
  { options := common ++ [lettered 'V' "version" .version], commands := families.map (·.1) ++ ["help"] }

def levelOf : List String → Level
  | ["login"] => leaf [lettered 'u' "username" .text, lettered 'p' "password" .text] []
  | ["exec"] =>
    leaf
      [{ lettered 's' "service" .service with isRequired := true }, lettered 'm' "method" .method,
       { lettered 'p' "path" .text with isRequired := true }, lettered 'b' "body" .text, lettered 'l' "label" .text]
      []
  | ["order", "create"] => leaf [option "idempotency-key" .text, option "amount-cents" .integer] []
  | ["order", "reserve"] => leaf [option "order-id" .text] []
  | ["order", "pay"] => leaf [option "order-id" .text, option "txn-id" .text, option "status" .text] []
  | ["order", "get"] => leaf [option "order-id" .text] []
  | ["inventory", "try-hold"] =>
    leaf [option "partition-key" .text, option "hold-id" .text, option "qty" .integer, option "capacity" .integer] []
  | ["inventory", "release"] => leaf [option "partition-key" .text, option "hold-id" .text] []
  | ["inventory", "confirm"] => leaf [option "partition-key" .text, option "hold-id" .text] []
  | ["inventory", "availability"] => leaf [option "partition-key" .text] []
  | ["query", "order"] =>
    { leaf [option "order-id" .text, option "use-current" .switch] [] with rivals := some ("use-current", "order-id") }
  | ["health"] => leaf [] [{ place "service" .service with isRequired := false }]
  | ["history", "list"] => leaf [lettered 'l' "limit" .count] []
  | ["history", "show"] => leaf [] [place "reference" .text]
  | ["history", "replay"] => leaf [] [place "reference" .text]
  | ["draft", "set"] => leaf [] [place "field" .field, place "value" .text]
  | ["watch"] => leaf [lettered 'c' "count" .count] []
  | _ => leaf [] []

def overview : List String :=
  families.map fun (first, seconds) =>
    if seconds.isEmpty then first else first ++ " <" ++ String.intercalate "|" seconds ++ ">"

/-! ### Meaning -/

def plainInteger (s : String) : String :=
  match Text.int64? s.toList with
  | some n => String.ofList (Text.showInt n.toInt)
  | none => s

/-- The edits of the drafts that options stand for, in the order of the fields. -/
def editsOf (v : Values) (fields : List (String × Field)) : List (Field × String) :=
  fields.filterMap fun (name, field) =>
    (v.lookup name).map fun value => (field, if field.isNumeric then plainInteger value else value)

def countOf (v : Values) (name : String) : Option Nat :=
  (v.lookup name).bind fun s => Text.natBelow? UInt64.size s.toList

def commandOf? (words : List String) (v : Values) : Option Command :=
  let orderId := [("order-id", Field.orderId)]
  let hold := [("partition-key", Field.partitionKey), ("hold-id", .holdId)]
  let act (a : Action) (fields : List (String × Field)) : Option Command := some (.act a (editsOf v fields))
  match words with
  | ["tui"] => some .tui
  | ["login"] => some (.login ((v.lookup "username").getD "demo-user") ((v.lookup "password").getD "123456"))
  | ["logout"] => some .logout
  | ["whoami"] => some .whoami
  | ["exec"] => do
    return .exec (← (v.lookup "service").bind Service.ofName?) (← Method.ofUserText? ((v.lookup "method").getD "GET"))
      (← v.lookup "path") (v.lookup "body") (v.lookup "label")
  | ["order", "create"] =>
    act .createOrder [("idempotency-key", .idempotencyKey), ("amount-cents", .amountCents)]
  | ["order", "reserve"] => act .reserveOrder orderId
  | ["order", "pay"] => act .paymentCallback (orderId ++ [("txn-id", .providerTxnId), ("status", .paymentStatus)])
  | ["order", "get"] => act .getOrder orderId
  | ["inventory", "try-hold"] => act .tryHold (hold ++ [("qty", .qty), ("capacity", .capacity)])
  | ["inventory", "release"] => act .releaseHold hold
  | ["inventory", "confirm"] => act .confirmHold hold
  | ["inventory", "availability"] => act .getAvailability [("partition-key", .partitionKey)]
  | ["query", "order"] => some (.queryOrder (v.lookup "order-id") (v.lookup "use-current").isSome)
  | ["flow", "order"] => some (.flow .order)
  | ["flow", "inventory"] => some (.flow .inventory)
  | ["health"] => some (.health ((v.lookup "service").bind Service.ofName?))
  | ["history", "list"] => some (.listHistory (countOf v "limit"))
  | ["history", "show"] => (v.lookup "reference").map .showEntry
  | ["history", "clear"] => some .clearHistory
  | ["history", "replay"] => (v.lookup "reference").map .replayEntry
  | ["draft", "show"] => some .showDrafts
  | ["draft", "set"] => do return .setDraft (← (v.lookup "field").bind Field.ofName?) (← v.lookup "value")
  | ["watch"] => some (.watch (countOf v "count"))
  | _ => none

/-! ### Reading a command line -/

/-- The answer to a request for help about words that follow a first word. -/
def helpAfter (seconds : List String) : List String → Rejection
  | [] => .displayHelp
  | [word] => if !seconds.isEmpty && (seconds.contains word || word == "help") then .displayHelp else .invalidSubcommand
  | _ => .invalidSubcommand

def helpAbout : List String → Rejection
  | [] => .displayHelp
  | ["help"] => .displayHelp
  | word :: rest =>
    match families.lookup word with
    | some seconds => helpAfter seconds rest
    | none => .invalidSubcommand

def readLeaf (words args : List String) : Except Rejection (List String × Values) := do
  let level := levelOf words
  let (r, _) ← Reading.takeAll level { places := level.places } args
  return (words, ← r.finish level false)

/-- Reads what is after the first word. The values of the second word count before those of the first. -/
def readWord (word : String) (args : List String) : Except Rejection (List String × Values) :=
  match families.lookup word with
  | none => .error .invalidSubcommand
  | some [] => readLeaf [word] args
  | some seconds => do
    let level := family seconds
    let (r, next) ← Reading.takeAll level { places := [] } args
    match next with
    | none =>
      let _ ← r.finish level false
      throw .missingSubcommand
    | some ("help", rest) => throw (helpAfter seconds rest)
    | some (second, rest) =>
      let (words, inner) ← readLeaf [word, second] rest
      let outer ← r.finish level true
      return (words, inner ++ outer)

def invocationOf (v : Values) (command : Option Command) : Invocation :=
  { config := v.lookup "config", stateDir := v.lookup "state-dir", ephemeral := (v.lookup "ephemeral").isSome,
    command := command }

/-- Reads a command line. A complaint about a word comes before one about the options before it. -/
def read (args : List String) : Except Rejection Invocation := do
  let (r, next) ← Reading.takeAll root { places := [] } args
  match next with
  | none => return invocationOf (← r.finish root false) none
  | some ("help", rest) => throw (helpAbout rest)
  | some (word, rest) =>
    let (words, inner) ← readWord word rest
    let outer ← r.finish root true
    match commandOf? words inner with
    | some command => return invocationOf (inner ++ outer) (some command)
    | none => throw .missingRequiredArgument

end TicketDesk.CommandLine
