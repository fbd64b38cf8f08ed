import TicketDesk.Screen.Span

/-! # Panels

A panel is a border around an area with a title in its upper line. -/

namespace TicketDesk.Screen

/-- A border with a title. -/
structure Panel where
  title : List Span := []
  border : Style
  /-- The style of the whole area. -/
  ground : Style := {}
  deriving DecidableEq, Repr

def Grid.putPanel (g : Grid) (a : Area) (p : Panel) : Grid :=
  if a.isEmpty then g
  else
    let left := a.x
    let right := a.right - 1
    let top := a.y
    let bottom := a.bottom - 1
    let upright (g : Grid) (x : Nat) := (List.range' top a.height).foldl (fun g y => g.put x y "│" p.border) g
    let level (g : Grid) (y : Nat) := (List.range' left a.width).foldl (fun g x => g.put x y "─" p.border) g
    let g := level (upright (level (upright (g.paint a p.ground) left) top) right) bottom
    let g := g.put right bottom "┘" p.border
    let g := g.put right top "┐" p.border
    let g := g.put left bottom "└" p.border
    let g := g.put left top "┌" p.border
    g.putLine (left + 1) (left + 1 + (a.width - 2)) top p.title

end TicketDesk.Screen
