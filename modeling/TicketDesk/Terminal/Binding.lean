import TicketDesk.Terminal.Key
import TicketDesk.Terminal.Mode

/-! # Key bindings

Each mode binds keys to commands. The tabs share some bindings; a mode that takes text has only its
own. The bar at the bottom and the help both list the bindings of the mode. -/

namespace TicketDesk.Terminal

/-- What a key can ask for. -/
inductive Command where
  | navigateUp
  | navigateDown
  | nextTab
  | previousTab
  | select
  | submit
  | switchField
  | confirm
  | cancel
  | replay
  | clearHistory
  | togglePolling
  | logout
  | quit
  | help
  deriving DecidableEq, Repr

/-- A key bound to a command, and how both are shown. -/
structure Binding where
  key : KeyCode
  command : Command
  display : String
  description : String
  deriving DecidableEq, Repr

namespace Binding

def shared : List Binding :=
  [⟨.tab, .nextTab, "Tab", "Next view"⟩, ⟨.backTab, .previousTab, "S-Tab", "Previous view"⟩,
   ⟨.char 'x', .logout, "X", "Log out"⟩, ⟨.char '?', .help, "?", "Help"⟩, ⟨.char 'q', .quit, "Q", "Quit"⟩]

def moves : List Binding :=
  [⟨.up, .navigateUp, "Up", "Navigate up"⟩, ⟨.down, .navigateDown, "Down", "Navigate down"⟩,
   ⟨.char 'k', .navigateUp, "K", "Navigate up"⟩, ⟨.char 'j', .navigateDown, "J", "Navigate down"⟩]

def act : Binding := ⟨.enter, .select, "Enter", "Edit / run"⟩

def own : Mode → List Binding
  | .login =>
    [⟨.tab, .switchField, "Tab", "Switch field"⟩, ⟨.up, .switchField, "Up", "Switch field"⟩,
     ⟨.down, .switchField, "Down", "Switch field"⟩, ⟨.enter, .submit, "Enter", "Log in"⟩,
     ⟨.esc, .quit, "Esc", "Quit"⟩]
  | .dashboard => moves ++ [act]
  | .orders => moves ++ [act]
  | .inventory => moves ++ [act]
  | .booking => moves ++ [act, ⟨.char 'p', .togglePolling, "P", "Toggle polling"⟩]
  | .history =>
    moves ++ [⟨.enter, .replay, "Enter", "Replay"⟩, ⟨.char 'r', .replay, "R", "Replay"⟩,
      ⟨.char 'c', .clearHistory, "C", "Clear history"⟩]
  | .editField => [⟨.enter, .confirm, "Enter", "Save"⟩, ⟨.esc, .cancel, "Esc", "Cancel"⟩]

/-- Whether a mode takes text, so that characters are not commands. -/
def takesText : Mode → Bool
  | .login => true
  | .editField => true
  | _ => false

def ofMode (m : Mode) : List Binding :=
  if takesText m then own m else own m ++ shared

def command? (m : Mode) (e : KeyEvent) : Option Command :=
  if e.effective = {} then ((ofMode m).find? fun b => b.key = e.code).map (·.command) else none

end Binding

def barCommands : Mode → List Command
  | .login => [.switchField, .submit, .quit]
  | .dashboard => [.navigateUp, .select, .nextTab, .logout, .help, .quit]
  | .orders => [.navigateUp, .select, .nextTab, .logout, .help, .quit]
  | .inventory => [.navigateUp, .select, .nextTab, .logout, .help, .quit]
  | .booking => [.navigateUp, .select, .togglePolling, .nextTab, .help, .quit]
  | .history => [.navigateUp, .replay, .clearHistory, .nextTab, .help, .quit]
  | .editField => [.confirm, .cancel]

/-- An item of the bar: a key and what it does. -/
structure BarItem where
  key : String
  label : String
  deriving DecidableEq, Repr

/-- The item of a binding; up and down are shown as one. -/
def BarItem.ofBinding (b : Binding) : BarItem :=
  if b.command = .navigateUp then ⟨"Up/Dn", "Navigate"⟩ else ⟨b.display, b.description⟩

def barItems (m : Mode) : List BarItem :=
  (barCommands m).filterMap fun c =>
    ((Binding.ofMode m).find? fun b => b.command = c).map BarItem.ofBinding

/-- A section of the help: a title and keys with what they do. -/
structure HelpSection where
  title : String
  items : List (String × String)
  deriving DecidableEq, Repr

def Command.section : Command → String
  | .navigateUp => "Navigation"
  | .navigateDown => "Navigation"
  | .nextTab => "Navigation"
  | .previousTab => "Navigation"
  | .switchField => "Navigation"
  | .logout => "General"
  | .help => "General"
  | .quit => "General"
  | _ => "Actions"

def bindingSection (m : Mode) (title : String) : HelpSection :=
  ⟨title, ((Binding.ofMode m).filter fun b => b.command.section = title).map fun b => (b.display, b.description)⟩

def tabSection : HelpSection :=
  ⟨"Views", (Mode.tabs.zipIdx 1).map fun tab => (String.ofList (Text.showNat tab.2), tab.1.name)⟩

def helpSections (m : Mode) : List HelpSection :=
  (["Navigation", "Actions", "General"].map (bindingSection m)).filter (fun s => !s.items.isEmpty)
    ++ (if Binding.takesText m then [] else [tabSection])

end TicketDesk.Terminal
