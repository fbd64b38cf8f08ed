/-! # Styles

A style sets some of the colours of what it is laid over, and may make it bold. What it does not set
stays as it is. -/

namespace TicketDesk.Screen

/-- A colour of the terminal. -/
inductive Color where
  | black
  | red
  | green
  | yellow
  | blue
  | cyan
  | gray
  | darkGray
  | white
  | rgb (red green blue : UInt8)
  deriving DecidableEq, Repr

/-- What to show a text in; a colour that is absent is not set. -/
structure Style where
  fg : Option Color := none
  bg : Option Color := none
  bold : Bool := false
  deriving DecidableEq, Repr

namespace Style

def colored (c : Color) : Style := { fg := some c }

/-- A style that sets the colour of the text and makes it bold. -/
def strong (c : Color) : Style := { fg := some c, bold := true }

def atop (s base : Style) : Style :=
  ⟨s.fg.or base.fg, s.bg.or base.bg, base.bold || s.bold⟩

theorem plain_atop (s : Style) : ({} : Style).atop s = s := by
  simp [atop]

theorem atop_plain (s : Style) : s.atop {} = s := by
  simp [atop]

theorem atop_assoc (a b c : Style) : (a.atop b).atop c = a.atop (b.atop c) := by
  simp [atop, Option.or_assoc, Bool.or_assoc]

end Style

end TicketDesk.Screen
