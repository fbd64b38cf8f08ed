import TicketDesk.Fault
import TicketDesk.Text.Blank

/-! # Sessions

Whoever gives a name and a password that are not blank is logged in; the password is not kept. -/

namespace TicketDesk

/-- A session of an operator. -/
structure Session where
  username : String
  token : String
  deriving DecidableEq

namespace Session

/-- The session that a login at a time begins, given in milliseconds since the epoch. -/
def login (username password : String) (millis : Int64) : Except Fault Session :=
  let name := Text.trimBlanks username.toList
  if name = [] ∨ Text.trimBlanks password.toList = [] then .error .blankCredentials
  else .ok ⟨String.ofList name, "mock-" ++ String.ofList (Text.showInt millis.toInt)⟩

def require : Option Session → Except Fault Session
  | some session => .ok session
  | none => .error .notLoggedIn

def toJson (s : Session) : Json :=
  .object [("username", .text s.username), ("token", .text s.token)]

def decoder : Json.Decoder Session :=
  .record ["username", "token"] fun depth fields => do
    return {
      username := ← fields.required "username" .text depth
      token := ← fields.required "token" .text depth }

end Session

end TicketDesk
