import TicketDesk.Screen.Span
import TicketDesk.Screen.Theme

/-! # Tabs

The tabs stand side by side in one row, a bar between two of them. -/

namespace TicketDesk.Screen

namespace Grid

/-- Draws a text in one style as far as it fits before a column, and says where it ends. -/
def putText (g : Grid) (right y : Nat) (s : Style) (x : Nat) : List Char → Grid × Nat
  | [] => (g, x)
  | c :: cs =>
    let next := x + Text.charWidth c
    if right < next then (g, x)
    else putText (g.put x y (String.singleton c) s) right y s next cs

def putTabs (g : Grid) (right y : Nat) (openTab : Option Nat) (i x : Nat) : List String → Grid
  | [] => g
  | title :: rest =>
    let (g, start) := g.putText right y {} x [' ']
    let (g, stop) := g.putText right y {} start title.toList
    let g := if openTab = some i then g.paint ⟨start, y, stop - start, 1⟩ Theme.openTab else g
    let (g, x) := g.putText right y {} stop [' ']
    if rest.isEmpty then g
    else
      let (g, x) := g.putText right y Theme.hint x ['│']
      putTabs g right y openTab (i + 1) x rest

end Grid

end TicketDesk.Screen
