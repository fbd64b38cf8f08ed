import TicketDesk.Screen.Paragraph
import TicketDesk.Screen.Tabs
import TicketDesk.Store
import TicketDesk.Terminal.Binding

/-! # The header and the lines at the bottom

The header shows the tabs on its left, and on its right what is going on and who is logged in. The
status line and the bar with the keys are at the bottom. -/

namespace TicketDesk.View
open Screen Terminal

def tabTitles : List String :=
  (Mode.tabs.zipIdx 1).map fun tab => String.ofList (Text.showNat tab.2) ++ " " ++ tab.1.name

def badge (f : Front) (s : State) : List Span :=
  let overall := s.health.overall
  (if 0 < f.pendingTasks then
      [⟨"⟳ " ++ String.ofList (Text.showNat f.pendingTasks) ++ " ", Theme.warning⟩] else [])
    ++ (if f.polling then [⟨"polling ", Theme.info⟩] else [])
    ++ [⟨overall.name ++ " ", Theme.ofOverall overall⟩]
    ++ [match s.session with
        | some session => ⟨"│ " ++ session.username, Theme.accent⟩
        | none => ⟨"│ signed out", Theme.muted⟩]

def headerParts (a : Area) : Area × Area :=
  a.splitAtColumn (max 10 (a.width - 40))

def putHeader (g : Grid) (a : Area) (f : Front) (s : State) : Grid :=
  if a.isEmpty then g
  else
    let g := g.putPanel a { title := [⟨" Ticketing Console ", Theme.title⟩], border := Theme.quietBorder }
    let (tabs, right) := headerParts a.inner
    let g :=
      if f.mode = .login ∨ tabs.isEmpty then g
      else (g.paint tabs Theme.otherTab).putTabs tabs.right tabs.y
        (some ((Mode.tabs.findIdx? (· == f.effectiveMode)).getD 0)) 0 tabs.x tabTitles
    g.putParagraph right { lines := [badge f s], alignsRight := true }

def putStatus (g : Grid) (a : Area) (f : Front) : Grid :=
  g.putParagraph a { lines := [[⟨" " ++ f.status, Theme.ofLevel f.level⟩]] }

def barSpans (items : List BarItem) : List Span :=
  List.intercalate [⟨"  │  ", Theme.hint⟩]
    (items.map fun item => [⟨item.key, .strong .cyan⟩, ⟨" " ++ item.label, Theme.secondary⟩])

def putBar (g : Grid) (a : Area) (m : Mode) : Grid :=
  g.putParagraph a { lines := [barSpans (barItems m)] }

end TicketDesk.View
