/-! # Blank characters

A character is blank when Unicode gives it the property White_Space. Trimming removes blanks at both
ends of a text and keeps those inside it. -/

namespace TicketDesk.Text

/-- The code points with the property White_Space, as closed ranges in increasing order. -/
def blankRanges : List (Nat × Nat) :=
  [(0x09, 0x0D), (0x20, 0x20), (0x85, 0x85), (0xA0, 0xA0), (0x1680, 0x1680), (0x2000, 0x200A),
   (0x2028, 0x2029), (0x202F, 0x202F), (0x205F, 0x205F), (0x3000, 0x3000)]

def isBlank (c : Char) : Bool :=
  blankRanges.any fun r => r.1 ≤ c.toNat && c.toNat ≤ r.2

def trimBlanks (cs : List Char) : List Char :=
  ((cs.dropWhile isBlank).reverse.dropWhile isBlank).reverse

def dropFinalSlashes (cs : List Char) : List Char :=
  (cs.reverse.dropWhile (· == '/')).reverse

theorem isBlank_space : isBlank ' ' = true := by decide

theorem trimBlanks_nil : trimBlanks [] = [] := rfl

end TicketDesk.Text
