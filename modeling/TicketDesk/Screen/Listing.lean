import TicketDesk.Screen.Panel
import TicketDesk.Screen.Theme

/-! # Listings

A listing shows items below each other in a panel. When there is a selected item, a mark stands before
it, and as many items are left out at the top as must be for it to be seen. -/

namespace TicketDesk.Screen

/-- An item of a listing. -/
structure Item where
  lines : List (List Span)
  style : Style := {}

/-- Items below each other in a panel. -/
structure Listing where
  items : List Item
  panel : Panel
  selected : Option Nat := none

namespace Listing

def fitting : Nat → List Item → Nat
  | _, [] => 0
  | rows, item :: rest =>
    if item.lines.length ≤ rows then 1 + fitting (rows - item.lines.length) rest else 0

/-- How many items at the end of a list are left when those at its front are dropped until the rest fits
    so many rows. -/
def fittingEnd (rows : Nat) (items : List Item) : Nat := fitting rows items.reverse

/-- The first item that is shown and how many are, so that the item to be seen is among them if it fits
    at all. -/
def shown (rows : Nat) (items : List Item) (seen : Nat) : Nat × Nat :=
  let fit := fitting rows items
  if seen < fit then (0, fit)
  else
    let count := fittingEnd rows (items.take (seen + 1))
    (seen + 1 - count, count)

end Listing

namespace Grid

/-- Draws the lines of an item, the first one in the row `y`. -/
def putLines (g : Grid) (x right y : Nat) (lines : List (List Span)) : Grid :=
  (lines.zipIdx y).foldl (fun g (line, y) => g.putLine x right y line) g

def selectionMark : String := "▸"

/-- Draws the mark before an item, or a blank, with blanks below it. -/
def putMark (g : Grid) (x y : Nat) (item : Item) (isSelected : Bool) : Grid :=
  (List.range item.lines.length).foldl (fun g i =>
    g.put x (y + i) (if isSelected && i == 0 then selectionMark else " ") item.style) g

def putItem (g : Grid) (a : Area) (y : Nat) (item : Item) (marked isSelected : Bool) : Grid :=
  let rows : Area := ⟨a.x, y, a.width, item.lines.length⟩
  let g := g.paint rows item.style
  let g := g.putLines (if marked then a.x + 1 else a.x) a.right y item.lines
  let g := if marked then g.putMark a.x y item isSelected else g
  if isSelected then g.paint rows Theme.selectedRow else g

/-- Draws items below each other, from the row `y` and the item number `i` on. -/
def putItems (g : Grid) (a : Area) (selected : Option Nat) (y i : Nat) : List Item → Grid
  | [] => g
  | item :: rest =>
    putItems (g.putItem a y item selected.isSome (selected == some i)) a selected
      (y + item.lines.length) (i + 1) rest

/-- Draws a listing in an area; a selection behind the last item is on the last item. -/
def putListing (g : Grid) (a : Area) (l : Listing) : Grid :=
  let g := g.putPanel a l.panel
  let inside := a.inner
  if inside.isEmpty || l.items.isEmpty then g
  else
    let selected := l.selected.map (min · (l.items.length - 1))
    let (first, count) := Listing.shown inside.height l.items (selected.getD 0)
    g.putItems inside selected inside.y first ((l.items.drop first).take count)

end Grid

end TicketDesk.Screen
