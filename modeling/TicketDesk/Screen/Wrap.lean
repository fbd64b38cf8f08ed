import TicketDesk.Screen.Span
import TicketDesk.Text.Blank

/-! # Wrapping

A line that is too long is broken at its gaps: a word that does not fit goes to the next line, and the
gap before it is dropped as far as it would have filled the line. Other gaps stay, also at the beginning
of a line. A word longer than a line is broken where the line is full. -/

namespace TicketDesk.Screen

def columns : List Glyph → Nat
  | [] => 0
  | g :: gs => g.width + columns gs

def Glyph.isGap (g : Glyph) : Bool :=
  g.symbol == String.singleton (Char.ofNat 0x200B)
    || (g.symbol.toList.all Text.isBlank && g.symbol != String.singleton (Char.ofNat 0xA0))

/-- Drops glyphs from the front while they fit so many columns. -/
def dropFitting : Nat → List Glyph → List Glyph
  | _, [] => []
  | room, g :: gs => if g.width ≤ room then dropFitting (room - g.width) gs else g :: gs

/-- A line being broken. -/
structure Wrapping where
  /-- The lines that are complete. -/
  done : List (List Glyph) := []
  /-- The line so far, without the last gap and word. -/
  line : List Glyph := []
  gap : List Glyph := []
  word : List Glyph := []
  /-- Whether the last glyph was part of a word. -/
  inWord : Bool := false

namespace Wrapping

def settle (w : Wrapping) : Wrapping :=
  { w with line := w.line ++ w.gap ++ w.word, gap := [], word := [] }

/-- Completes the line; the gap is dropped as far as it would have fitted. -/
def endLine (limit : Nat) (w : Wrapping) : Wrapping :=
  { w with done := w.done ++ [w.line], line := [], gap := dropFitting (limit - columns w.line) w.gap }

def add (g : Glyph) (w : Wrapping) : Wrapping :=
  if g.isGap then { w with gap := w.gap ++ [g], inWord := false }
  else { w with word := w.word ++ [g], inWord := true }

def step (limit : Nat) (w : Wrapping) (g : Glyph) : Wrapping :=
  if limit < g.width then w
  else
    let ends := w.inWord && g.isGap
    let tooLong := w.line.isEmpty && decide (limit < columns w.word + columns w.gap + g.width)
    let w := if ends || tooLong then w.settle else w
    if limit ≤ columns w.line ∨ (0 < g.width ∧ limit ≤ columns w.line + columns w.gap + columns w.word) then
      let w := w.endLine limit
      if g.isGap && w.gap.isEmpty then w else w.add g
    else w.add g

def finish (w : Wrapping) : List (List Glyph) :=
  let alone := w.line.isEmpty && w.word.isEmpty && !w.gap.isEmpty
  let last := w.settle.line
  let lines := w.done ++ (if alone then [[]] else []) ++ (if last.isEmpty then [] else [last])
  if lines.isEmpty then [[]] else lines

end Wrapping

/-- A line broken into lines of so many columns. -/
def wrapLine (limit : Nat) (gs : List Glyph) : List (List Glyph) :=
  (gs.foldl (Wrapping.step limit) {}).finish

/-- A line cut off after so many columns; glyphs wider than that are left out. -/
def cutLine (limit : Nat) : Nat → List Glyph → List Glyph
  | _, [] => []
  | used, g :: gs =>
    if limit < g.width then cutLine limit used gs
    else if limit < used + g.width then []
    else g :: cutLine limit (used + g.width) gs

end TicketDesk.Screen
