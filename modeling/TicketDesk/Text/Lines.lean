/-! # Lines

A text is cut at its line feeds. A carriage return before a line feed goes with it, and a line feed at
the end of the text does not begin another line. -/

namespace TicketDesk.Text

/-- The lines of a list of characters, after the characters `line` of the first line in reverse. -/
def linesFrom (line : List Char) : List Char → List String
  | [] => if line.isEmpty then [] else [String.ofList line.reverse]
  | '\n' :: cs =>
    let line := match line with
      | '\r' :: rest => rest
      | other => other
    String.ofList line.reverse :: linesFrom [] cs
  | c :: cs => linesFrom (c :: line) cs

def lines (s : String) : List String := linesFrom [] s.toList

theorem lines_empty : lines "" = [] := by decide

end TicketDesk.Text
