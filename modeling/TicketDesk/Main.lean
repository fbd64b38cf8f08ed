import TicketDesk.CommandLine.Program
import TicketDesk.Http.Response
import Std.Async.DNS
import Std.Async.TCP
import Std.Async.Timer
import Std.Time

/-! # The program

Reads the command line and the configuration file, opens the state files and does the errand: it talks
to the services over sockets, takes the time from the clocks and prints. -/

namespace TicketDesk.Main

open Std Std.Async

/-! ### Clocks -/

/-- Two digits of a number of hours, minutes or seconds. -/
def twoDigits (n : Int) : String :=
  let digits := String.ofList (Text.showInt n)
  if digits.length < 2 then "0" ++ digits else digits

/-- What the clock and the random source say now. -/
def moment : IO Moment := do
  let millis := (← Time.Timestamp.now).toMillisecondsSinceUnixEpoch
  let time ← Time.PlainTime.now
  let random ← IO.rand 0 (UInt32.size - 1)
  return ⟨Int64.ofInt millis.val, UInt32.ofNat random,
    twoDigits time.hour.val ++ ":" ++ twoDigits time.minute.val ++ ":" ++ twoDigits time.second.val⟩

/-! ### Requests -/

/-- Everything that a server sends until it ends the connection. -/
partial def receive (client : TCP.Socket.Client) (sofar : ByteArray) : Async ByteArray := do
  match ← client.recv? 65536 with
  | some bytes => receive client (sofar ++ bytes)
  | none => return sofar

def address (host : String) (port : UInt16) : Async Net.SocketAddress := do
  let addresses ← DNS.getAddrInfo host ""
  match addresses.toList with
  | .v4 ip :: _ => return .v4 ⟨ip, port⟩
  | .v6 ip :: _ => return .v6 ⟨ip, port⟩
  | [] => throw (IO.userError "unknown host")

/-- Sends the text of a request to a host and takes what comes back. -/
def converse (host : String) (port : UInt16) (text : String) : Async ByteArray := do
  let client ← TCP.Socket.Client.mk
  client.connect (← address host port)
  client.send text.toUTF8
  receive client ByteArray.empty

def within (limit : Option UInt64) (operation : Async ByteArray) : Async ByteArray :=
  match limit with
  | none => operation
  | some seconds => Async.race operation do
    sleep (.ofNat (seconds.toNat * 1000))
    throw (IO.userError "timeout")

/-- Sends a request over a socket. -/
def exchange (limit : Option UInt64) (w : Wire) : IO Reply :=
  match Http.locate? w.url with
  | some l =>
    match l.scheme, l.port? with
    | "http", some port => do
      let start ← IO.monoMsNow
      try
        let bytes ← (within limit (converse l.host port (Http.requestText w l))).block
        match Http.Response.ofBytes? bytes.toList with
        | some r => return Http.replyOf w r.status r.body (UInt64.ofNat ((← IO.monoMsNow) - start))
        | none => return Http.unreachable w "broken response"
      catch e => return Http.unreachable w (toString e)
    | _, _ => return Http.unreachable w "no way to connect"
  | none => return Http.unreachable w "not a URL"

/-! ### State files -/

def content (path : String) : IO (Except String String) := do
  try return .ok (← IO.FS.readFile path)
  catch e => return .error (toString e)

def blobs (directory : Option String) : IO Blobs := do
  let read (key : Key) : IO (Option String) := match directory with
    | some dir => do return (← content (Config.joinPath dir key.fileName)).toOption
    | none => return none
  let session ← read .session
  let history ← read .history
  let drafts ← read .drafts
  return fun
    | .session => session
    | .history => history
    | .drafts => drafts

/-- Writes the text of a key to its file. The file is emptied first, so a write that fails may leave it empty, or cut. -/
def write (directory : String) (key : Key) (blob : String) : IO (Except Fault Unit) := do
  try
    IO.FS.createDirAll directory
    IO.FS.writeFile (Config.joinPath directory key.fileName) blob
    return .ok ()
  catch e => return .error (.io (toString e))

/-- Writes the text of a committed slice, however that goes. -/
def save (directory : Option String) (s : State) (slice : Slice) : IO Unit :=
  match directory, s.blob? slice with
  | some dir, some (key, blob) => discard (write dir key blob)
  | _, _ => return ()

/-- Does updates in order and writes each to its file. -/
def commit (directory : Option String) : List Update → Store → IO Store
  | [], s => return s
  | u :: rest, s => do
    let s := s.update u
    save directory s.state u.slice
    commit directory rest s

/-! ### Work -/

def say : Line → IO Unit
  | .out text => IO.println text
  | .err text => IO.eprintln text

def perform {α : Type} (limit : Option UInt64) (directory : Option String) : Work α → Store → IO α
  | .done a, _ => return a
  | .look next, s => perform limit directory (next s.state) s
  | .change us next, s => do perform limit directory next (← commit directory us s)
  | .send wire next, s => do perform limit directory (next (← exchange limit wire)) s
  | .moment next, s => do perform limit directory (next (← moment)) s
  | .say line next, s => do
    say line
    perform limit directory next s
  | .wait millis next, s => do
    IO.sleep (UInt32.ofNat millis)
    perform limit directory (next (← IO.monoMsNow)) s

def complain (complaint : String) : IO UInt32 := do
  IO.eprintln (CommandLine.complaintLine complaint)
  return UInt32.ofNat (CommandLine.exitCode complaint)

def run (i : CommandLine.Invocation) : IO UInt32 := do
  let file ← match i.config with
    | some path => content path
    | none => pure (.error "")
  match i.errand (← IO.getEnv "HOME") file with
  | .error complaint => complain complaint
  | .ok errand =>
    let store := Store.load (.reliable (← blobs errand.directory))
    match ← perform errand.timeout errand.directory errand.job store with
    | .ok () => return 0
    | .error complaint => complain complaint

def usage (rejection : CommandLine.Rejection) : IO UInt32 := do
  let lines := "Usage: ticketing-console [OPTIONS] [COMMAND]" :: "" :: "Commands:"
    :: CommandLine.overview.map ("  " ++ ·)
  for text in lines do
    if rejection.exitCode = 0 then IO.println text else IO.eprintln text
  return UInt32.ofNat rejection.exitCode

end TicketDesk.Main

def main (args : List String) : IO UInt32 :=
  match TicketDesk.CommandLine.read args with
  | .ok invocation => TicketDesk.Main.run invocation
  | .error rejection => TicketDesk.Main.usage rejection
