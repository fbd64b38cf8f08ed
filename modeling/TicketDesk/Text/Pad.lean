/-! # Columns of text

A text is brought to a least number of characters with blanks after it or before it. A longer text
stays as it is. -/

namespace TicketDesk.Text

def padRight (width : Nat) (s : String) : String :=
  s ++ String.ofList (List.replicate (width - s.length) ' ')

def padLeft (width : Nat) (s : String) : String :=
  String.ofList (List.replicate (width - s.length) ' ') ++ s

end TicketDesk.Text
