import TicketDesk.Screen.Listing
import TicketDesk.Terminal.Front
import TicketDesk.View.Result

/-! # The tabs

Each tab shows its rows or the history on the left, and what they are about on the right. -/

namespace TicketDesk.View
open Screen Terminal

def rowStyle : Row → Style
  | .field _ => Theme.text
  | .togglePolling => Theme.secondary
  | .useCurrentOrderId => Theme.secondary
  | _ => Theme.command

def putRows (g : Grid) (a : Area) (f : Front) (d : Drafts) (title : String) : Grid :=
  g.putListing a
    { items := (Row.ofMode f.effectiveMode).map fun row =>
        ⟨Span.linesOf (" " ++ row.label d f.polling), rowStyle row⟩
      panel := { title := [⟨" " ++ title ++ " ", {}⟩], border := Theme.activeBorder }
      selected := some f.selection }

def boardLines (b : Board) : List (List Span) :=
  b.toList.map (fun e =>
      [⟨" " ++ Theme.healthSign e.2 ++ " ", Theme.ofHealth e.2⟩,
       ⟨Text.padRight 16 e.1.label, Theme.text⟩, ⟨e.2.name, Theme.ofHealth e.2⟩])
    ++ [[], [⟨" Overall ", Theme.secondary⟩, ⟨b.overall.name, Theme.ofOverall b.overall⟩]]

def recentEntries : Nat := 8

/-- How many rows of the dashboard's left side are for its rows: nine, but three are left for the board
    as long as there are so many. -/
def dashboardRows (height : Nat) : Nat := min 9 (height - 3)

def putDashboard (g : Grid) (a : Area) (f : Front) (s : State) : Grid :=
  let (left, right) := a.splitColumns 40
  let (rows, board) := left.splitAtRow (dashboardRows left.height)
  let (result, recent) := right.splitRows 60
  let entries := s.history.entries
  let g := putRows g rows f s.drafts "Health"
  let g := g.putParagraph board
    { lines := boardLines s.health, panel := some { title := [⟨" Services ", {}⟩], border := Theme.quietBorder } }
  let g := putResult g result s.result
  g.putListing recent
    { items := (entries.take recentEntries).map fun e => ⟨[entryLine e], {}⟩
      panel := { title := [⟨" Recent (" ++ String.ofList (Text.showNat entries.length) ++ " total) ", {}⟩]
                 border := Theme.quietBorder } }

def rowsTitle : Mode → String
  | .orders => "Order Service"
  | .inventory => "Inventory Service"
  | .booking => "Booking Flows"
  | _ => "Actions"

/-- Draws a tab with rows beside the last result. -/
def putActions (g : Grid) (a : Area) (f : Front) (s : State) : Grid :=
  let (left, right) := a.splitColumns 45
  putResult (putRows g left f s.drafts (rowsTitle f.effectiveMode)) right s.result

/-- Draws the history with the selected entry in full. -/
def putHistory (g : Grid) (a : Area) (f : Front) (s : State) : Grid :=
  let (left, right) := a.splitColumns 55
  let entries := s.history.entries
  let g := g.putListing left
    { items := entries.map fun e => ⟨[entryLine e], {}⟩
      panel := { title := [⟨" History (" ++ String.ofList (Text.showNat entries.length) ++ ") ", {}⟩]
                 border := Theme.activeBorder }
      selected := if entries.isEmpty then none else some f.historySelection }
  g.putParagraph right
    { lines := match entries[f.historySelection]? with
        | some e => entryLines e
        | none => [[⟨"No requests yet", Theme.muted⟩]]
      panel := some { title := [⟨" Request ", {}⟩], border := Theme.quietBorder }
      wraps := true }

end TicketDesk.View
