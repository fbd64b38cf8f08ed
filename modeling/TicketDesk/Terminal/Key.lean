/-! # Keys

What the keyboard sends: a key, the modifiers held with it, and whether it was pressed, repeated or
released. -/

namespace TicketDesk.Terminal

/-- A key. -/
inductive KeyCode where
  | char (c : Char)
  | tab
  | backTab
  | up
  | down
  | left
  | right
  | enter
  | esc
  | backspace
  | delete
  | home
  | pageDown
  | function (n : Nat)
  /-- Any other key, by its name. -/
  | other (name : String)
  deriving DecidableEq, Repr

/-- The modifiers held with a key. -/
structure Modifiers where
  shift : Bool := false
  ctrl : Bool := false
  alt : Bool := false
  superKey : Bool := false
  hyperKey : Bool := false
  metaKey : Bool := false
  deriving DecidableEq, Repr

/-- What happened to a key. -/
inductive KeyKind where
  | press
  | repeated
  | release
  deriving DecidableEq, Repr

/-- An event of the keyboard. -/
structure KeyEvent where
  code : KeyCode
  modifiers : Modifiers := {}
  kind : KeyKind := .press
  deriving DecidableEq, Repr

/-- The modifiers that count for a key: a shifted character is a character of its own. -/
def KeyEvent.effective (e : KeyEvent) : Modifiers :=
  match e.code with
  | .char _ => { e.modifiers with shift := false }
  | .backTab => { e.modifiers with shift := false }
  | _ => e.modifiers

/-- A line of text after a key: a character is added, a backspace takes the last one away. -/
def KeyEvent.edit (e : KeyEvent) (s : String) : String :=
  match e.code with
  | .backspace => String.ofList s.toList.dropLast
  | .char c => if e.modifiers.ctrl || e.modifiers.alt then s else s.push c
  | _ => s

end TicketDesk.Terminal
