import TicketDesk.Screen.Grid
import TicketDesk.Text.Lines

/-! # Spans

A span is a text in one style, and a line is a list of spans. A line is drawn cluster by cluster from
the left, as far as it fits. -/

namespace TicketDesk.Screen

/-- A text in one style. -/
structure Span where
  text : String
  style : Style := {}
  deriving DecidableEq, Repr

/-- A cluster in a style. -/
structure Glyph where
  symbol : String
  width : Nat
  style : Style
  deriving DecidableEq, Repr

namespace Span

def width (s : Span) : Nat := Text.width s.text

/-- What is drawn of a span: line feeds are not. -/
def glyphs (s : Span) : List Glyph :=
  ((Text.clusters s.text).filter (· ≠ ['\n'])).map fun c => ⟨String.ofList c, Text.clusterWidth c, s.style⟩

def linesOf (s : String) : List (List Span) :=
  (Text.lines s).map fun line => if line.isEmpty then [] else [⟨line, {}⟩]

end Span

namespace Grid

/-- Draws glyphs in a row from the column `x` on, up to the column `right`. A glyph without width joins
    the one before; after one at the very beginning, `left`, all glyphs join it until one takes a column. -/
def putGlyphs (g : Grid) (left right y : Nat) (isFirst : Bool) (x : Nat) : List Glyph → Grid
  | [] => g
  | glyph :: rest =>
    let next := x + glyph.width
    if right < next then g
    else
      let g := if isFirst then g.put x y glyph.symbol glyph.style
        else if x = left then g.append x y glyph.symbol glyph.style
        else if glyph.width = 0 then g.append (x - 1) y glyph.symbol glyph.style
        else g.put x y glyph.symbol glyph.style
      putGlyphs (g.changeRow (x + 1) next y fun _ => {}) left right y false next rest

/-- Draws a line in a row from the column `x` on, up to the column `right`. -/
def putLine (g : Grid) (x right y : Nat) : List Span → Grid
  | [] => g
  | s :: rest =>
    if s.width = 0 then putLine g x right y rest
    else if right ≤ x then g
    else putLine (g.putGlyphs x right y true x s.glyphs) (x + s.width) right y rest

end Grid

end TicketDesk.Screen
