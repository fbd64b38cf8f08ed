import TicketDesk.Text.Repertoire

/-! # Showing a text unambiguously

A text between quotes in which every character can be seen: quotes and backslashes are escaped, line
breaks and tabs have letters of their own, and other characters that show nothing are written by their
code. -/

namespace TicketDesk.Text

/-- Code points that show nothing of their own: controls, separators, format characters and those that
    are left to private use or to no use. -/
def unseenRanges : List (Nat × Nat) :=
  [(0x00, 0x1F), (0x7F, 0xA0), (0xAD, 0xAD), (0x600, 0x605), (0x61C, 0x61C), (0x6DD, 0x6DD), (0x70F, 0x70F),
   (0x890, 0x891), (0x8E2, 0x8E2), (0x1680, 0x1680), (0x180E, 0x180E), (0x2000, 0x200F), (0x2028, 0x202F),
   (0x205F, 0x206F), (0x3000, 0x3000), (0xD800, 0xF8FF), (0xFEFF, 0xFEFF), (0xFFF0, 0xFFFB), (0xFFFE, 0xFFFF),
   (0x110BD, 0x110BD), (0x110CD, 0x110CD), (0x13430, 0x1343F), (0x1BCA0, 0x1BCA3), (0x1D173, 0x1D17A),
   (0xE0000, 0x10FFFF)]

/-- The later parts of a Hangul syllable, which take no column after the first and still show. -/
def hangulParts : List (Nat × Nat) := [(0x1160, 0x11FF), (0xD7B0, 0xD7FB)]

/-- Whether a character shows nothing of its own, or only as part of the one before it. -/
def isUnseen (c : Char) : Bool :=
  inRanges unseenRanges c.toNat || (inRanges zeroWidthRanges c.toNat && !inRanges hangulParts c.toNat)

/-- A character as it is shown between quotes. -/
def visible (c : Char) : List Char :=
  if c = '"' ∨ c = '\'' ∨ c = '\\' then ['\\', c]
  else if c = '\n' then ['\\', 'n']
  else if c = '\r' then ['\\', 'r']
  else if c = '\t' then ['\\', 't']
  else if c.toNat = 0 then ['\\', '0']
  else if c ≠ ' ' ∧ isUnseen c then ['\\', 'u', '\x7b'] ++ Nat.toDigits 16 c.toNat ++ ['\x7d']
  else [c]

def showQuoted (s : String) : String :=
  String.ofList ('"' :: (s.toList.flatMap visible ++ ['"']))

end TicketDesk.Text
