import TicketDesk.Service

/-! # Faults

What can go wrong, by kind. The message of a fault is what the user reads. -/

namespace TicketDesk

/-- A failure of an operation of the console. -/
inductive Fault where
  /-- A file could not be read or written. -/
  | io (detail : String)
  /-- A text is not the JSON that was expected. -/
  | json (detail : String)
  /-- A request got no answer. -/
  | network (detail : String)
  /-- A request was answered with a status other than 2xx. -/
  | http (status : UInt16) (body : String)
  /-- Nobody is logged in, or a login was refused. -/
  | session (detail : String)
  /-- A value was refused. -/
  | validation (detail : String)
  /-- The configuration does not serve. -/
  | config (detail : String)
  /-- The console cannot go on. -/
  | state (detail : String)
  deriving DecidableEq, Repr

namespace Fault

def message : Fault → String
  | .io detail => "IO error: " ++ detail
  | .json detail => "JSON error: " ++ detail
  | .network detail => "Network error: " ++ detail
  | .http status body => "HTTP " ++ String.ofList (Text.showNat status.toNat) ++ ": " ++ body
  | .session detail => "Session error: " ++ detail
  | .validation detail => "Validation error: " ++ detail
  | .config detail => "Configuration error: " ++ detail
  | .state detail => "State error: " ++ detail

/-- The status that the backend answered with, if it answered at all. -/
def status? : Fault → Option UInt16
  | .http status _ => some status
  | _ => none

def blankCredentials : Fault := .session "username and password must not be empty"

def notLoggedIn : Fault := .session "not logged in; run \x60login\x60 first"

def notWholeNumber (field value : String) : Fault :=
  .validation (field ++ " must be a whole number, got '" ++ value ++ "'")

def noBaseUrl (service : Service) : Fault :=
  .config ("no base URL configured for service '" ++ service.name ++ "'")

end Fault

end TicketDesk
