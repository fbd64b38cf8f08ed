import TicketDesk.Text.Integer

/-! # Percent encoding

A query value is written byte by byte in UTF-8. An unreserved byte stands for itself; every other byte
is a percent sign and two upper-case hexadecimal digits, so no separator of a URL is left in the
result. -/

namespace TicketDesk.Text

/-- The characters that a query value holds as they are: ASCII letters, ASCII digits and
    the nine marks. -/
def isUnreserved (c : Char) : Bool :=
  c.isAlphanum || ['-', '_', '.', '!', '~', '*', '\'', '(', ')'].contains c

/-- The upper-case hexadecimal digit of a number below sixteen. -/
def upperHex (n : Nat) : Char :=
  if n < 10 then Char.ofNat (48 + n) else Char.ofNat (55 + n)

def escapeByte (b : UInt8) : List Char :=
  ['%', upperHex (b.toNat / 16), upperHex (b.toNat % 16)]

/-- One character of a query value as written. -/
def encodeChar (c : Char) : List Char :=
  if isUnreserved c then [c] else (String.utf8EncodeChar c).flatMap escapeByte

def encodeComponent (s : String) : String :=
  String.ofList (s.toList.flatMap encodeChar)

theorem encodeComponent_append (s t : String) :
    encodeComponent (s ++ t) = encodeComponent s ++ encodeComponent t := by
  simp [encodeComponent, String.toList_append, String.ofList_append]

end TicketDesk.Text
