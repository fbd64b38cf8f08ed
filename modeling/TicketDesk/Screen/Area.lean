/-! # Areas

A rectangle of cells of the screen, and the ways to divide one. A division is first made exactly and its
lines are then put at the nearest cell, halves downwards and to the right. -/

namespace TicketDesk.Screen

/-- A rectangle of cells. -/
structure Area where
  x : Nat
  y : Nat
  width : Nat
  height : Nat
  deriving DecidableEq, Repr

namespace Area

def right (a : Area) : Nat := a.x + a.width

def bottom (a : Area) : Nat := a.y + a.height

def isEmpty (a : Area) : Bool := a.width == 0 || a.height == 0

/-- What is left inside a border one cell wide. -/
def inner (a : Area) : Area :=
  ⟨min (a.x + 1) a.right, min (a.y + 1) a.bottom, a.width - 2, a.height - 2⟩

/-- The first rows of an area, and the rows below them. -/
def splitAtRow (a : Area) (rows : Nat) : Area × Area :=
  let rows := min rows a.height
  ({ a with height := rows }, ⟨a.x, a.y + rows, a.width, a.height - rows⟩)

/-- The first columns of an area, and the columns right of them. -/
def splitAtColumn (a : Area) (columns : Nat) : Area × Area :=
  let columns := min columns a.width
  ({ a with width := columns }, ⟨a.x + columns, a.y, a.width - columns, a.height⟩)

/-- A whole number of hundredths to the nearest unit, a half upwards. -/
def nearest (hundredths : Nat) : Nat := (hundredths + 50) / 100

/-- An area divided into a left part of so many hundredths and the rest. -/
def splitColumns (percent : Nat) (a : Area) : Area × Area :=
  a.splitAtColumn (nearest (a.width * percent))

/-- An area divided into an upper part of so many hundredths and the rest. -/
def splitRows (percent : Nat) (a : Area) : Area × Area :=
  a.splitAtRow (nearest (a.height * percent))

/-- The middle of an area: so many hundredths of its width and a number of rows. What does not fit is cut
    off. -/
def centered (percent rows : Nat) (a : Area) : Area :=
  let y := if rows ≤ a.height then a.y + (a.height - rows + 1) / 2 else a.y
  let height := min rows a.height
  if 100 ≤ percent then ⟨a.x, y, a.width, height⟩
  else
    let start := a.x * 100 + (a.width * (100 - percent) + 1) / 2
    let left := nearest start
    ⟨left, y, nearest (start + a.width * percent) - left, height⟩

/-- The lines between the four rows of the editor in so many rows: when there is too little room, the
    lines are spread evenly. -/
def editorLines : Nat → List Nat
  | 0 => [0, 0, 0, 0, 0]
  | 1 => [0, 0, 1, 1, 1]
  | 2 => [0, 1, 1, 2, 2]
  | 3 => [0, 1, 2, 2, 3]
  | _ => [0, 1, 2, 3, 4]

/-- The rows of an area between two lines counted from its top. -/
def between (a : Area) (first last : Nat) : Area :=
  ⟨a.x, a.y + first, a.width, last - first⟩

theorem splitAtColumn_width (a : Area) (n : Nat) :
    (a.splitAtColumn n).1.width + (a.splitAtColumn n).2.width = a.width := by
  simp only [splitAtColumn]
  omega

theorem splitAtRow_height (a : Area) (n : Nat) :
    (a.splitAtRow n).1.height + (a.splitAtRow n).2.height = a.height := by
  simp only [splitAtRow]
  omega

end Area

end TicketDesk.Screen
