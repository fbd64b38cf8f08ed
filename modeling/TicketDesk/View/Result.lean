import TicketDesk.Screen.Paragraph
import TicketDesk.Screen.Theme
import TicketDesk.Store

/-! # Results and history entries

How the last result and the entries of the history are put in words. -/

namespace TicketDesk.View
open Screen

/-- Data for reading: a text as it is, other values indented. -/
def readable : Json → String
  | .text s => s
  | v => v.pretty

def resultTitle (r : LastResult) : List Span :=
  [⟨" " ++ r.title ++ " ", Theme.title⟩]
    ++ (match r.status with
        | some n => [⟨"HTTP " ++ String.ofList (Text.showNat n.toNat) ++ " ", Theme.ofStatus (some n)⟩]
        | none => [])
    ++ (match r.durationMs with
        | some n => [⟨String.ofList (Text.showNat n.toNat) ++ "ms ", Theme.muted⟩]
        | none => [])

def putResult (g : Grid) (a : Area) (r : LastResult) : Grid :=
  g.putParagraph a
    { lines := Span.linesOf (readable r.data)
      panel := some { title := resultTitle r, border := Theme.quietBorder }
      style := Theme.text
      wraps := true }

def entryLine (e : Entry) : List Span :=
  [⟨e.timeOfDay ++ " ", Theme.muted⟩,
   ⟨Text.padRight 4 e.method.name ++ " ", Theme.ofMethod e.method⟩,
   ⟨Text.padRight 3 (String.ofList (Text.showNat e.status.toNat)) ++ " ", Theme.ofStatus (some e.status)⟩,
   ⟨Text.padLeft 5 (String.ofList (Text.showNat e.durationMs.toNat)) ++ "ms ", Theme.muted⟩,
   ⟨e.label, Theme.text⟩]

def entryLines (e : Entry) : List (List Span) :=
  [[⟨e.label, Theme.title⟩],
   [⟨e.method.name ++ " ", Theme.ofMethod e.method⟩, ⟨e.path, Theme.text⟩,
    ⟨" (" ++ e.service.name ++ ")", Theme.muted⟩],
   [⟨"HTTP ", Theme.secondary⟩, ⟨String.ofList (Text.showNat e.status.toNat), Theme.ofStatus (some e.status)⟩,
    ⟨"  " ++ String.ofList (Text.showNat e.durationMs.toNat) ++ "ms  at " ++ e.timeOfDay, Theme.muted⟩],
   [⟨"id " ++ e.id, Theme.muted⟩]]
    ++ (match e.body with
        | some body => [[], [⟨"Body", Theme.secondary⟩]] ++ Span.linesOf (readable body)
        | none => [])
    ++ [[], [⟨"Enter or R to replay", Theme.hint⟩]]

end TicketDesk.View
