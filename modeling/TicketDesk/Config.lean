import TicketDesk.Call
import TicketDesk.Text.Blank
import TicketDesk.Text.Visible

/-! # Configuration

Where the services answer, how long a request may take, how often to poll, and where state is kept.
Every part has a default, so a file may give any part of it; a service that the file leaves out keeps
its default base URL. -/

namespace TicketDesk

/-- The base URL of a service on the local development stack. -/
def Service.localUrl : Service → String
  | .gateway => "http://127.0.0.1:8080"
  | .order => "http://127.0.0.1:8081"
  | .inventory => "http://127.0.0.1:8082"
  | .query => "http://127.0.0.1:8083"
  | .worker => "http://127.0.0.1:8084"
  | .nginx => "http://127.0.0.1:8088"

/-- The configuration of the console. -/
structure Config where
  /-- The base URL of each service, as written. -/
  services : Service → Option String := fun s => some s.localUrl
  /-- The time limit of a request in seconds; zero is none. -/
  requestTimeoutSecs : UInt64 := 10
  /-- The time between two polls in seconds. -/
  pollIntervalSecs : UInt64 := 3
  /-- The directory of the state files, when one is set. -/
  stateDir : Option String := none

namespace Config

def initial : Config := {}

/-- The services that a configuration names, with their URLs as written. -/
def listed (c : Config) : List (Service × String) :=
  Service.all.filterMap fun s => (c.services s).map fun url => (s, url)

def toJson (c : Config) : Json :=
  .object
    [("services", .object (c.listed.map fun entry => (entry.1.name, .text entry.2))),
     ("request_timeout_secs", .ofUInt64 c.requestTimeoutSecs),
     ("poll_interval_secs", .ofUInt64 c.pollIntervalSecs),
     ("state_dir", .ofText? c.stateDir)]

/-- Reads base URLs by service; of a service given twice the last URL counts. -/
def urls? (depth : Nat) : List (Option String × Json.Written) → Option (Service → Option String)
  | [] => some fun _ => none
  | (key, w) :: rest => do
    let service ← key.bind Service.ofName?
    let url ← Json.Decoder.text depth w
    let later ← urls? depth rest
    some fun s => match later s with
      | some u => some u
      | none => if s = service then some url else none

/-- Reads the base URLs. -/
def urlsDecoder : Json.Decoder (Service → Option String)
  | depth + 1, .object members => urls? depth members
  | _, _ => none

/-- Reads the record as it stands; a missing field has its default. -/
def decoder : Json.Decoder Config :=
  .record ["services", "request_timeout_secs", "poll_interval_secs", "state_dir"] fun depth fields => do
    return {
      services := ← fields.default "services" urlsDecoder depth initial.services
      requestTimeoutSecs := ← fields.default "request_timeout_secs" .uint64 depth initial.requestTimeoutSecs
      pollIntervalSecs := ← fields.default "poll_interval_secs" .uint64 depth initial.pollIntervalSecs
      stateDir := ← fields.default "state_dir" (.nullable .text) depth initial.stateDir }

/-- The configuration with the default URL for every service it leaves out. -/
def completed (c : Config) : Config :=
  { c with services := fun s => some ((c.services s).getD s.localUrl) }

def ofFile? (content : String) : Option Config :=
  (Json.decode? decoder content).map completed

/-- Why a file gives no configuration. -/
inductive LoadFault where
  | unreadable (path cause : String)
  | malformed
  deriving DecidableEq, Repr

def LoadFault.message : LoadFault → String
  | .unreadable path _ => "Failed to read configuration from " ++ Text.showQuoted path
  | .malformed => "Failed to parse configuration JSON"

def LoadFault.cause : LoadFault → String
  | .unreadable _ cause => cause
  | .malformed => "not a configuration"

/-- The configuration in a file, given its content or why that could not be read. -/
def load (path : String) (content : Except String String) : Except LoadFault Config :=
  match content with
  | .error cause => .error (.unreadable path cause)
  | .ok text =>
    match ofFile? text with
    | some c => .ok c
    | none => .error .malformed

/-- What keeps a configuration from serving. -/
inductive Defect where
  | emptyUrl (service : Service)
  | foreignUrl (service : Service)
  | zeroPollInterval
  deriving DecidableEq, Repr

def Defect.message : Defect → String
  | .emptyUrl s => "Base URL for service '" ++ s.name ++ "' must be specified"
  | .foreignUrl s => "Base URL for service '" ++ s.name ++ "' must start with http:// or https://"
  | .zeroPollInterval => "Poll interval must be at least one second"

/-- Whether a URL begins with the scheme of HTTP or of HTTPS. -/
def hasHttpScheme (url : List Char) : Bool :=
  "http://".toList.isPrefixOf url || "https://".toList.isPrefixOf url

/-- The defect of a URL as written. -/
def urlDefect? (service : Service) (url : String) : Option Defect :=
  let trimmed := Text.trimBlanks url.toList
  if trimmed = [] then some (.emptyUrl service)
  else if hasHttpScheme trimmed then none
  else some (.foreignUrl service)

/-- The first defect of a configuration: the URLs in service order, then the interval. -/
def defect? (c : Config) : Option Defect :=
  match c.listed.findSome? fun entry => urlDefect? entry.1 entry.2 with
  | some d => some d
  | none => if c.pollIntervalSecs = 0 then some .zeroPollInterval else none

/-- A base URL without blanks around it and slashes at its end. -/
def bareUrl (url : String) : String :=
  String.ofList (Text.dropFinalSlashes (Text.trimBlanks url.toList))

def baseUrl? (c : Config) (service : Service) : Option String :=
  (c.services service).map bareUrl

def url (c : Config) (call : Call) : Except Fault String :=
  match c.baseUrl? call.service with
  | some base => .ok (base ++ call.path)
  | none => .error (.noBaseUrl call.service)

theorem url_of_base {c : Config} {call : Call} {base : String} (h : c.baseUrl? call.service = some base) :
    c.url call = .ok (base ++ call.path) := by
  rw [url, h]

theorem url_of_no_base {c : Config} {call : Call} (h : c.baseUrl? call.service = none) :
    c.url call = .error (.noBaseUrl call.service) := by
  rw [url, h]

def requestTimeout? (c : Config) : Option UInt64 :=
  if c.requestTimeoutSecs = 0 then none else some c.requestTimeoutSecs

/-- The time between two polls in seconds, at least one. -/
def pollInterval (c : Config) : UInt64 :=
  if c.pollIntervalSecs = 0 then 1 else c.pollIntervalSecs

/-- The name of the state directory under the home directory. -/
def stateDirName : String := ".ticketing-console"

def joinPath (dir name : String) : String :=
  if dir.toList.getLast? = some '/' then dir ++ name else dir ++ "/" ++ name

/-- The state directory: the one that is set, or else one under the home directory, or else one in the
    working directory. -/
def resolvedStateDir (c : Config) (home : Option String) : String :=
  match c.stateDir, home with
  | some dir, _ => dir
  | none, some home => if home = "" then stateDirName else joinPath home stateDirName
  | none, none => stateDirName

end Config

end TicketDesk
