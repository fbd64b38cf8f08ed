import TicketDesk.Screen.Panel
import TicketDesk.Screen.Wrap

/-! # Paragraphs

A paragraph fills an area with lines, which are wrapped or cut off at its right side. -/

namespace TicketDesk.Screen

/-- Lines of text with an optional panel around them. -/
structure Paragraph where
  lines : List (List Span)
  panel : Option Panel := none
  style : Style := {}
  wraps : Bool := false
  alignsRight : Bool := false

namespace Paragraph

def fitted (p : Paragraph) (columns : Nat) : List (List Glyph) :=
  p.lines.flatMap fun line =>
    let glyphs := line.flatMap (·.glyphs)
    if p.wraps then wrapLine columns glyphs else [cutLine columns 0 glyphs]

end Paragraph

namespace Grid

/-- Draws glyphs that take a column, one after the other, from a column on. -/
def putVisible (g : Grid) (y : Nat) (x : Nat) : List Glyph → Grid
  | [] => g
  | glyph :: rest =>
    if glyph.width = 0 then putVisible g y x rest
    else putVisible (g.put x y glyph.symbol glyph.style) y (x + glyph.width) rest

def putParagraph (g : Grid) (a : Area) (p : Paragraph) : Grid :=
  let g := g.paint a p.style
  let (g, inside) := match p.panel with
    | some panel => (g.putPanel a panel, a.inner)
    | none => (g, a)
  if inside.isEmpty then g
  else
    let g := g.paint inside p.style
    let lines := (p.fitted inside.width).take inside.height
    (lines.zipIdx inside.y).foldl (fun g (line, y) =>
      g.putVisible y (if p.alignsRight then inside.x + (inside.width - columns line) else inside.x) line) g

end Grid

end TicketDesk.Screen
