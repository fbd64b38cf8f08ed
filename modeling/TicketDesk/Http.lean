import TicketDesk.Text.Integer
import TicketDesk.Work

/-! # Requests on the wire

What of a URL goes into a request, what the request looks like as text, and what comes of a response.
A URL with a character that must be escaped is not sent at all. -/

namespace TicketDesk.Http

/-- A URL as a client needs it. -/
structure Location where
  scheme : String
  /-- The host, and the port if there is one. -/
  authority : String
  /-- The path with the query, as it is sent. -/
  target : String
  deriving DecidableEq, Repr

/-- Whether a character may stand in the path of a URL as it is. -/
def isPathChar (c : Char) : Bool :=
  0x7F ≤ c.toNat || (0x21 ≤ c.toNat && c ∉ ['#', '<', '>', '?', '\x60'])

/-- Whether a character may stand in the query of a URL as it is. -/
def isQueryChar (c : Char) : Bool :=
  0x7F ≤ c.toNat || (0x21 ≤ c.toNat && c ∉ ['"', '#', '<', '>'])

/-- The path and query at the front of a text, which a number sign ends. -/
def target? (cs : List Char) : Option (List Char) :=
  let cs := cs.takeWhile (· ≠ '#')
  let path := cs.takeWhile (· ≠ '?')
  let query := cs.dropWhile (· ≠ '?')
  if path.all isPathChar && query.all isQueryChar then
    some (if path.isEmpty then '/' :: query else path ++ query)
  else none

/-- Whether a character ends the host and port of a URL. -/
def endsAuthority (c : Char) : Bool := c == '/' || c == '?' || c == '#'

/-- Reads a URL of one of the schemes. -/
def locate? (url : String) : Option Location :=
  let split (scheme : String) : Option Location :=
    let start := (scheme ++ "://").toList
    if start.isPrefixOf url.toList then
      let rest := url.toList.drop start.length
      let authority := rest.takeWhile (!endsAuthority ·)
      if authority.isEmpty then none
      else (target? (rest.dropWhile (!endsAuthority ·))).map fun target =>
        ⟨scheme, String.ofList authority, String.ofList target⟩
    else none
  (split "http").or (split "https")

/-- The host of a location, without brackets around a numeric one. -/
def Location.host (l : Location) : String :=
  match l.authority.toList with
  | '[' :: cs => String.ofList (cs.takeWhile (· ≠ ']'))
  | cs => String.ofList (cs.takeWhile (· ≠ ':'))

def Location.port? (l : Location) : Option UInt16 :=
  let afterHost := match l.authority.toList with
    | '[' :: cs => (cs.dropWhile (· ≠ ']')).drop 1
    | cs => cs.dropWhile (· ≠ ':')
  match afterHost with
  | [] => some 80
  | _ :: digits => (Text.natBelow? UInt16.size digits).map UInt16.ofNat

/-- A request as text; the connection is for this request only. -/
def requestText (w : Wire) (l : Location) : String :=
  let body := w.body.getD ""
  let length := match w.method, w.body with
    | .get, none => ""
    | _, _ => "Content-Length: " ++ String.ofList (Text.showNat body.utf8ByteSize) ++ "\r\n"
  w.method.name ++ " " ++ l.target ++ " HTTP/1.1\r\nHost: " ++ l.authority
    ++ "\r\nContent-Type: application/json\r\nAccept: */*\r\nConnection: close\r\n" ++ length ++ "\r\n" ++ body

/-- Whether a status sends the client somewhere else. -/
def isRedirect (status : UInt16) : Bool := 300 ≤ status && status < 400 && status != 304

def hasBody (status : UInt16) : Bool := status != 204 && status != 304

def unreachable (w : Wire) (cause : String) : Reply :=
  .unreachable (w.method.name ++ " " ++ w.url ++ ": " ++ cause)

/-- What a response comes to: one that only points elsewhere is no answer. -/
def replyOf (w : Wire) (status : UInt16) (body : String) (durationMs : UInt64) : Reply :=
  if isRedirect status then unreachable w "redirected without a location"
  else .answer ⟨status, if hasBody status then body else "", durationMs⟩

end TicketDesk.Http
