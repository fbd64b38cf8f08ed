import TicketDesk.Main
import TicketDesk.Terminal.Console
import TicketDesk.View.Frame
import TicketDesk.Proofs.Json.Numeral
import TicketDesk.Proofs.Text.Integer
import TicketDesk.Proofs.Json.Quoted
import TicketDesk.Proofs.Json.Shape
import TicketDesk.Proofs.Json.Record
import TicketDesk.Proofs.Store.Slices
import TicketDesk.Proofs.Drafts
import TicketDesk.Proofs.Store.Coherence
import TicketDesk.Proofs.Execution
import TicketDesk.Proofs.Tickets
import TicketDesk.Proofs.Wire
import TicketDesk.Proofs.Fields
import TicketDesk.Proofs.Work.Frame
import TicketDesk.Proofs.Work.Delivery
import TicketDesk.Proofs.Work.Snapshot
import TicketDesk.Proofs.Terminal.Run
import TicketDesk.Proofs.Terminal.Moves
import TicketDesk.Proofs.Terminal.Polling
import TicketDesk.Proofs.Terminal.Front
import TicketDesk.Proofs.Terminal.Invariant
import TicketDesk.Proofs.Terminal.Edits
import TicketDesk.Proofs.Terminal.Kept
import TicketDesk.Proofs.Terminal.Password
import TicketDesk.Proofs.History
import TicketDesk.Proofs.Store.Writes
import TicketDesk.Proofs.Replay
import TicketDesk.Proofs.CommandLine.Reload
import TicketDesk.Proofs.Schedule
import TicketDesk.Proofs.Work.Replies
import TicketDesk.Proofs.Work.Sweep
import TicketDesk.Proofs.Flow
import TicketDesk.Proofs.OrderId
import TicketDesk.Proofs.BaseUrl
import TicketDesk.Proofs.Json.Fields
import TicketDesk.Proofs.ConfigFile
import TicketDesk.Proofs.Terminal.Editing
import TicketDesk.Proofs.Terminal.Replaying
import TicketDesk.Proofs.Terminal.Display
import TicketDesk.Proofs.Screen.Listing
import TicketDesk.Proofs.CommandLine.Refusals
import TicketDesk.Proofs.CommandLine.Overrides
import TicketDesk.Proofs.CommandLine.Asking
import TicketDesk.Proofs.CallRecord
import TicketDesk.Proofs.Reference
import TicketDesk.Proofs.CommandLine.Listed
import TicketDesk.Proofs.CommandLine.Watch
import TicketDesk.Proofs.Body
import TicketDesk.Proofs.DraftRecord
