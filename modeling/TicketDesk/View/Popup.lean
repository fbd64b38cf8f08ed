import TicketDesk.Screen.Paragraph
import TicketDesk.Screen.Theme
import TicketDesk.Terminal.Binding
import TicketDesk.Terminal.Front

/-! # Windows over the view

The login form, the editor of a field and the help lie in the middle of what is below them. -/

namespace TicketDesk.View
open Screen Terminal

def cursor : String := "█"

def loginLine (label value : String) (isFocused : Bool) : List Span :=
  [⟨Text.padRight 10 label, Theme.secondary⟩,
   if isFocused then ⟨value ++ cursor, Theme.focused⟩ else ⟨value, Theme.text⟩]

/-- Draws the login form; a dot stands for each character of the password. -/
def putLogin (g : Grid) (a : Area) (form : LoginForm) : Grid :=
  let a := a.centered 50 9
  let dots := String.ofList (List.replicate form.password.length '•')
  (g.putPanel a { title := [⟨" Sign in ", Theme.title⟩], border := Theme.activeBorder }).putParagraph a.inner
    { lines :=
        [[], loginLine "Username" form.username (form.focus == .username),
         [], loginLine "Password" dots (form.focus == .password),
         [], [⟨"Any non-empty credentials are accepted", Theme.muted⟩]] }

def putEditor (g : Grid) (e : FieldEditor) : Grid :=
  let a := g.area.centered 50 7
  let g := (g.erase a).putPanel a
    { title := [⟨" Edit " ++ e.field.name ++ " ", Theme.title⟩], border := Theme.activeBorder, ground := Theme.popup }
  let put (g : Grid) (first last : Nat) (line : List Span) :=
    g.putParagraph (a.inner.between first last) { lines := [line] }
  match Area.editorLines a.inner.height with
  | [l0, l1, l2, l3, l4] =>
    let g := put g l0 l1 [⟨if e.field.isNumeric then "Whole number" else "Text", Theme.muted⟩]
    let g := put g l1 l2 [⟨"> ", Theme.accent⟩, ⟨e.buffer, Theme.text⟩, ⟨cursor, Theme.focused⟩]
    put g l3 l4 [⟨"Enter save │ Esc cancel", Theme.hint⟩]
  | _ => g

def sectionLines (s : HelpSection) : List (List Span) :=
  [⟨"  " ++ s.title ++ "  ", Theme.heading⟩]
    :: s.items.map (fun item =>
      [⟨"    ", {}⟩, ⟨Text.padRight 10 item.1, Theme.focused⟩, ⟨item.2, Theme.text⟩])
    ++ [[]]

def helpLines (m : Mode) : List (List Span) :=
  [[⟨"  Ticketing Console Help  ", Theme.title⟩], [], [⟨"Current: ", Theme.muted⟩, ⟨m.name, Theme.accent⟩], []]
    ++ (helpSections m).flatMap sectionLines
    ++ [[⟨"Press ? or Esc to close", Theme.muted⟩]]

def putHelp (g : Grid) (m : Mode) : Grid :=
  let lines := helpLines m
  let a := g.area.centered 60 (min (lines.length + 2) g.height)
  (g.erase a).putParagraph a
    { lines := lines, panel := some { title := [⟨" Help ", {}⟩], border := Theme.activeBorder }
      style := Theme.popup, wraps := true }

end TicketDesk.View
