import TicketDesk.Screen.Area
import TicketDesk.Screen.Style
import TicketDesk.Text.Cluster

/-! # The grid

The screen is a grid of cells, each with a symbol and a style. All drawing goes through
`Grid.change`, which changes one cell and does nothing outside the grid. -/

namespace TicketDesk.Screen

/-- A cell of the screen. -/
structure Cell where
  symbol : String := " "
  style : Style := {}
  deriving DecidableEq, Repr

/-- A screen, row by row. -/
structure Grid where
  width : Nat
  height : Nat
  cells : Array Cell
  deriving DecidableEq, Repr

namespace Grid

def blank (width height : Nat) : Grid := ⟨width, height, Array.replicate (width * height) {}⟩

def area (g : Grid) : Area := ⟨0, 0, g.width, g.height⟩

def cell? (g : Grid) (x y : Nat) : Option Cell :=
  if x < g.width then g.cells[y * g.width + x]? else none

def change (g : Grid) (x y : Nat) (f : Cell → Cell) : Grid :=
  if x < g.width then { g with cells := g.cells.modify (y * g.width + x) f } else g

def changeRow (g : Grid) (x last y : Nat) (f : Cell → Cell) : Grid :=
  (List.range' x (last - x)).foldl (fun g x => g.change x y f) g

def changeArea (g : Grid) (a : Area) (f : Cell → Cell) : Grid :=
  (List.range' a.y a.height).foldl (fun g y => g.changeRow a.x a.right y f) g

def paint (g : Grid) (a : Area) (s : Style) : Grid :=
  g.changeArea a fun c => { c with style := s.atop c.style }

def erase (g : Grid) (a : Area) : Grid := g.changeArea a fun _ => {}

/-- Puts a symbol into a cell and lays a style over it. -/
def put (g : Grid) (x y : Nat) (symbol : String) (s : Style) : Grid :=
  g.change x y fun c => ⟨symbol, s.atop c.style⟩

/-- Adds a symbol to the one in a cell and lays a style over it. -/
def append (g : Grid) (x y : Nat) (symbol : String) (s : Style) : Grid :=
  g.change x y fun c => ⟨c.symbol ++ symbol, s.atop c.style⟩

/-- A row as the terminal shows it: a cell under a wide symbol is not drawn and stays empty. -/
def uncovered (covered : Bool) : List Cell → List Cell
  | [] => []
  | c :: cs => (if covered then {} else c) :: uncovered (2 ≤ Text.width c.symbol) cs

def rows (g : Grid) : List (List Cell) :=
  (List.range g.height).map fun y => uncovered false (g.cells.extract (y * g.width) ((y + 1) * g.width)).toList

def text (g : Grid) : List String :=
  g.rows.map fun cells =>
    String.ofList ((String.join (cells.map (·.symbol))).toList.reverse.dropWhile (· == ' ')).reverse

/-- Where each style of a row begins, from a column on and after a style. -/
def styleRuns (before : Option Style) (column : Nat) : List Cell → List (Nat × Style)
  | [] => []
  | c :: cs =>
    let rest := styleRuns (some c.style) (column + 1) cs
    if before = some c.style then rest else (column, c.style) :: rest

/-- A change is seen in the changed cell and nowhere else. -/
theorem cell?_change (g : Grid) (x y i j : Nat) (f : Cell → Cell) :
    (g.change x y f).cell? i j = if i = x ∧ j = y then (g.cell? i j).map f else g.cell? i j := by
  unfold change cell?
  by_cases hx : x < g.width
  · by_cases hi : i < g.width
    · have key : y * g.width + x = j * g.width + i ↔ i = x ∧ j = y := by
        constructor
        · intro h
          have hm := congrArg (· % g.width) h
          simp only [Nat.mul_add_mod_of_lt, hx, hi] at hm
          subst hm
          exact ⟨rfl, (Nat.eq_of_mul_eq_mul_right (by omega) (by omega : y * g.width = j * g.width)).symm⟩
        · rintro ⟨rfl, rfl⟩
          rfl
      by_cases h : i = x ∧ j = y
      · simp [hx, h, Array.getElem?_modify, key.mpr h]
      · have : ¬ (y * g.width + x = j * g.width + i) := fun e => h (key.mp e)
        simp [hx, hi, h, Array.getElem?_modify, this]
    · have : ¬ (i = x ∧ j = y) := fun h => hi (h.1 ▸ hx)
      simp [hx, hi]
  · by_cases hi : i < g.width
    · have : ¬ (i = x ∧ j = y) := fun h => hx (h.1 ▸ hi)
      simp [hx, this]
    · simp [hx, hi]

theorem change_width (g : Grid) (x y : Nat) (f : Cell → Cell) : (g.change x y f).width = g.width := by
  unfold change
  split <;> rfl

theorem change_height (g : Grid) (x y : Nat) (f : Cell → Cell) : (g.change x y f).height = g.height := by
  unfold change
  split <;> rfl

theorem size_change (g : Grid) (x y : Nat) (f : Cell → Cell) :
    (g.change x y f).cells.size = g.cells.size := by
  unfold change
  split
  · simp
  · rfl

end Grid

end TicketDesk.Screen
