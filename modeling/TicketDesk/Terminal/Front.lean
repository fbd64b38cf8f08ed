import TicketDesk.Terminal.Mode

/-! # The front

What the terminal itself remembers: the mode, the two cursors, what is being typed, and the status
line. Everything else is in the store. -/

namespace TicketDesk.Terminal

/-- An input of the login form. -/
inductive LoginInput where
  | username
  | password
  deriving DecidableEq, Repr

/-- The login form. -/
structure LoginForm where
  username : String := "demo-user"
  password : String := "123456"
  focus : LoginInput := .username
  deriving DecidableEq, Repr

namespace LoginForm

def toggleFocus (f : LoginForm) : LoginForm :=
  { f with focus := match f.focus with | .username => .password | .password => .username }

def editFocused (f : LoginForm) (edit : String → String) : LoginForm :=
  match f.focus with
  | .username => { f with username := edit f.username }
  | .password => { f with password := edit f.password }

end LoginForm

/-- A field being edited and the text typed so far. -/
structure FieldEditor where
  field : Field
  buffer : String
  deriving DecidableEq, Repr

/-- How the status line is meant. -/
inductive Level where
  | info
  | success
  | error
  deriving DecidableEq, Repr

/-- What the terminal remembers. -/
structure Front where
  mode : Mode := .login
  /-- The mode under the editor. -/
  returnMode : Option Mode := none
  selection : Nat := 0
  /-- The selected history entry, zero being the newest. -/
  historySelection : Nat := 0
  level : Level := .info
  status : String := "Welcome to the Ticketing Console"
  helpVisible : Bool := false
  login : LoginForm := {}
  editor : Option FieldEditor := none
  polling : Bool := false
  pendingTasks : Nat := 0
  deriving DecidableEq, Repr

namespace Front

def say (f : Front) (level : Level) (message : String) : Front :=
  { f with level := level, status := message }

/-- The view on the screen; the editor lies over the one it was opened from. -/
def effectiveMode (f : Front) : Mode :=
  match f.mode with
  | .editField => f.returnMode.getD .dashboard
  | m => m

def selectedRow? (f : Front) : Option Row := (Row.ofMode f.mode)[f.selection]?

/-- Goes to a mode; the selection starts over unless it is the mode already. -/
def switchTo (f : Front) (m : Mode) : Front :=
  if f.mode = m then f else { f with mode := m, selection := 0 }

def nextTab (f : Front) : Front := f.switchTo (f.mode.tabAfter 1)

def previousTab (f : Front) : Front := f.switchTo (f.mode.tabAfter (Mode.tabs.length - 1))

/-- A cursor moved by one in a list of a length, going round at both ends. -/
def moved (down : Bool) (cursor length : Nat) : Nat :=
  if length = 0 then 0
  else if down then (cursor + 1) % length
  else (cursor + length - 1) % length

def moveSelection (f : Front) (down : Bool) (historyLength : Nat) : Front :=
  if f.mode = .history then { f with historySelection := moved down f.historySelection historyLength }
  else { f with selection := moved down f.selection (Row.ofMode f.mode).length }

/-- Keeps the history cursor inside a list that may have become shorter. -/
def clampHistory (f : Front) (historyLength : Nat) : Front :=
  if historyLength ≤ f.historySelection then { f with historySelection := historyLength - 1 } else f

def beginEdit (f : Front) (field : Field) (text : String) : Front :=
  { f with returnMode := some f.mode, mode := .editField, editor := some ⟨field, text⟩ }

def endEdit (f : Front) : Front :=
  { f with mode := f.returnMode.getD .dashboard, returnMode := none, editor := none }

end Front

end TicketDesk.Terminal
