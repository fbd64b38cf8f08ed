import TicketDesk.View.Header
import TicketDesk.View.Popup
import TicketDesk.View.Tab

/-! # The frame

The whole screen: the header, the view below it, the status line and the bar, and over them the editor
and the help when they are open. -/

namespace TicketDesk.View
open Screen Terminal

/-- How many rows the header, the view and the status line have in a screen of a height; the bar has the
    rest. The view always has a row, and the lines at the bottom give way before the header does. -/
def frameRows : Nat → Nat × Nat × Nat
  | 0 => (0, 0, 0)
  | 1 => (0, 1, 0)
  | 2 => (1, 1, 0)
  | 3 => (1, 1, 1)
  | 4 => (1, 1, 1)
  | 5 => (2, 1, 1)
  | height => (3, height - 5, 1)

def putView (g : Grid) (a : Area) (f : Front) (s : State) : Grid :=
  match f.effectiveMode with
  | .login => putLogin g a f.login
  | .dashboard => putDashboard g a f s
  | .orders => putActions g a f s
  | .inventory => putActions g a f s
  | .booking => putActions g a f s
  | .history => putHistory g a f s
  | .editField => g

def draw (width height : Nat) (f : Front) (s : State) : Grid :=
  let g := Grid.blank width height
  let (top, middle, status) := frameRows height
  let (header, rest) := g.area.splitAtRow top
  let (view, rest) := rest.splitAtRow middle
  let (statusLine, bar) := rest.splitAtRow status
  let g := putHeader g header f s
  let g := putView g view f s
  let g := putBar (putStatus g statusLine f) bar f.mode
  let g := match f.editor with
    | some e => putEditor g e
    | none => g
  if f.helpVisible then putHelp g f.mode else g

end TicketDesk.View
