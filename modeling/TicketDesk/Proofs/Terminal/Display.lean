import TicketDesk.Proofs.Screen.Listing
import TicketDesk.Proofs.Store.Slices
import TicketDesk.Proofs.Terminal.Replaying
import TicketDesk.View.Frame

/-! # What is on the screen when an entry is replayed

The main loop goes in turns: a tick, at most one key, and a frame drawn from a copy of the state. The worker goes on
between these. So the frame that the user looks at is older than the tick and the key after it, and the entry that the
key replays is the one that the frame marks and shows in full when nothing was recorded since that copy, and another
one, as many places above it as were recorded, when something was. -/

namespace TicketDesk

/-! ### The history in a frame -/

namespace View
open Screen Terminal

def entryItem (e : Entry) : Item := ⟨[entryLine e], {}⟩

def historyPanel (total : Nat) : Panel :=
  { title := [⟨" History (" ++ String.ofList (Text.showNat total) ++ ") ", {}⟩], border := Theme.activeBorder }

/-- Draws an entry marked between others, and in full beside them. -/
def putMarked (g : Grid) (a : Area) (total : Nat) (above : List Entry) (e : Entry) (below : List Entry) : Grid :=
  let (left, right) := a.splitColumns 55
  let top := left.inner.y
  let g := (g.putPanel left (historyPanel total)).putUnselected left.inner top (above.map entryItem)
  let g := g.putItem left.inner (top + above.length) (entryItem e) true true
  let g := g.putUnselected left.inner (top + above.length + 1) (below.map entryItem)
  g.putParagraph right
    { lines := entryLines e, panel := some { title := [⟨" Request ", {}⟩], border := Theme.quietBorder }, wraps := true }

/-- The view of the history marks the entry that the cursor is on, and shows it in full. -/
theorem putView_history {f : Front} {s : State} {e : Entry} (hmode : f.mode = .history)
    (hentry : s.history.entries[f.historySelection]? = some e) (g : Grid) (a : Area)
    (hroom : (a.splitColumns 55).1.inner.isEmpty = false) :
    ∃ above below, (above ++ e :: below) <:+: s.history.entries ∧
      putView g a f s = putMarked g a s.history.entries.length above e below := by
  have heffective : f.effectiveMode = .history := (Front.effectiveMode_eq (by simp [hmode])).trans hmode
  have hsome : s.history.entries ≠ [] := by
    rintro hnone
    simp [hnone] at hentry
  let l : Listing :=
    { items := s.history.entries.map entryItem
      panel := historyPanel s.history.entries.length
      selected := some f.historySelection }
  obtain ⟨above, below, hpart, hlisting⟩ :=
    Grid.putListing_selected (l := l) rfl (fun _ => rfl) rfl hentry hroom g
  refine ⟨above, below, hpart, ?_⟩
  simp only [putView, heffective, putHistory, hentry, List.isEmpty_eq_false_iff.mpr hsome, putMarked]
  rw [show l.panel = historyPanel s.history.entries.length from rfl] at hlisting
  rw [← hlisting]
  rfl

end View

namespace Terminal

/-- What a frame is drawn from. -/
structure Picture where
  front : Front
  state : State

/-- The history is open, and the frame marks an entry of it and shows it in full. -/
structure Picture.Shows (p : Picture) (e : Entry) : Prop where
  view : p.front.mode = .history
  uncovered : p.front.helpVisible = false
  marked : p.state.history.entries[p.front.historySelection]? = some e
  drawn : ∀ (g : Screen.Grid) (a : Screen.Area), (a.splitColumns 55).1.inner.isEmpty = false →
    ∃ above below, (above ++ e :: below) <:+: p.state.history.entries ∧
      View.putView g a p.front p.state = View.putMarked g a p.state.history.entries.length above e below

theorem Picture.shows_of_marked {p : Picture} {e : Entry} (hview : p.front.mode = .history)
    (hhelp : p.front.helpVisible = false) (hmarked : p.state.history.entries[p.front.historySelection]? = some e) :
    p.Shows e :=
  ⟨hview, hhelp, hmarked, View.putView_history hview hmarked⟩

/-! ### The main loop -/

abbrev WorkerEvent := { e : Event // e.isFront = false }

/-- A turn of the main loop, with what the worker does before each part of it. -/
structure Turn where
  beforeTick : List WorkerEvent := []
  now : Int := 0
  beforeKey : List WorkerEvent := []
  key? : Option (KeyEvent × Int × Moment) := none
  beforeFrame : List WorkerEvent := []

/-- The events of a turn up to its key. -/
def Turn.toKey (t : Turn) : List Event :=
  t.beforeTick.map (·.1) ++ .tick t.now :: t.beforeKey.map (·.1)

/-- A terminal with the frame that was drawn last. -/
structure Display where
  desk : Desk
  picture? : Option Picture := none
  stopped : Bool := false

namespace Display

/-- The main loop before its first turn, on a store that was opened. -/
def start (b : Backend) (ms : Nat) : Display := { desk := .start (.load b) ms }

/-- A frame is drawn. -/
def frame (d : Desk) : Display := { desk := d, picture? := some ⟨d.console.front, d.store.state⟩ }

/-- The loop is left without another frame, and with the poller off. -/
def leave (v : Display) (d : Desk) : Display :=
  { v with desk := { d with console := { d.console with poller := d.console.poller.disable } }, stopped := true }

def turn (c : Config) (v : Display) (t : Turn) : Display :=
  if v.stopped then v
  else
    let d := v.desk.run c t.toKey
    match t.key? with
    | none => frame (d.run c (t.beforeFrame.map (·.1)))
    | some (k, now, m) =>
      if (d.handleKey k now m).2 then v.leave (d.handleKey k now m).1
      else frame ((d.after c (.key k now m)).run c (t.beforeFrame.map (·.1)))

def turns (c : Config) (v : Display) (ts : List Turn) : Display := ts.foldl (turn c) v

/-- The key of a turn hands in the replay of an entry. -/
def Replays (c : Config) (v : Display) (t : Turn) (e : Entry) : Prop :=
  v.stopped = false ∧ ∃ k now m, t.key? = some (k, now, m) ∧ .replay e ∈ (v.desk.run c t.toKey).submitted c (.key k now m)

/-- Until the user quits, the last frame is of the terminal as it is. Before the first frame the history is not open. -/
structure Current (v : Display) : Prop where
  sound : v.desk.Sound
  last : v.picture? = some ⟨v.desk.console.front, v.desk.store.state⟩ ∨
    v.picture? = none ∧ v.desk.console.front.mode ≠ .history

theorem current_start (b : Backend) (ms : Nat) : (start b ms).Current where
  sound := Desk.sound_start b ms
  last := by
    refine Or.inr ⟨rfl, ?_⟩
    rw [start, Desk.start]
    dsimp only
    split <;> simp

theorem current_frame {d : Desk} (h : d.Sound) : (frame d).Current := ⟨h, Or.inl rfl⟩

theorem Current.turn {v : Display} (h : v.stopped = false → v.Current) (c : Config) (t : Turn)
    (hrunning : (v.turn c t).stopped = false) : (v.turn c t).Current := by
  unfold Display.turn at hrunning ⊢
  split at hrunning
  · next hstop => simp [hstop] at hrunning
  next hgoes =>
  rw [if_neg hgoes]
  have hkey := (h (by simpa using hgoes)).sound.run c t.toKey
  dsimp only at hrunning ⊢
  split
  · exact current_frame (hkey.run c _)
  next k now m hpressed =>
  rw [hpressed] at hrunning
  dsimp only at hrunning
  split
  · next hquit => simp [hquit, leave] at hrunning
  · exact current_frame ((hkey.after c _).run c _)

theorem current_turns (c : Config) (b : Backend) (ms : Nat) (ts : List Turn)
    (hrunning : ((start b ms).turns c ts).stopped = false) : ((start b ms).turns c ts).Current := by
  induction ts using List.reverseRecOn with
  | nil => exact current_start b ms
  | append_singleton ts t ih =>
    rw [turns, List.foldl_concat] at hrunning ⊢
    exact Current.turn ih c t hrunning

/-! ### Replaying -/

/-- An entry that a key replays, with the last frame and what was recorded since the copy that the frame was drawn
    from: the entry that the cursor of the frame is on once the new entries stand before those of the frame. -/
structure Replayed (p : Picture) (new : List Entry) (e : Entry) : Prop where
  view : p.front.mode = .history
  uncovered : p.front.helpVisible = false
  entry : (new.reverse ++ p.state.history.entries)[p.front.historySelection]? = some e
  same : new = [] → p.Shows e
  other : new ≠ [] → ((new.reverse ++ p.state.history.entries).map (·.id)).Nodup → ∀ seen, p.Shows seen → seen.id ≠ e.id

theorem isKey_toKey (t : Turn) : ∀ e ∈ t.toKey, e.isKey = false := by
  have hworker (e : WorkerEvent) : e.1.isKey = false := by
    obtain ⟨e, he⟩ := e
    cases e with
    | key k now m => cases he
    | _ => rfl
  intro e he
  rcases List.mem_append.mp he with he | he
  · obtain ⟨e, -, rfl⟩ := List.mem_map.mp he
    exact hworker e
  · rcases List.mem_cons.mp he with rfl | he
    · rfl
    · obtain ⟨e, -, rfl⟩ := List.mem_map.mp he
      exact hworker e

theorem replayed_of_entry {p : Picture} {new : List Entry} {e : Entry} (hview : p.front.mode = .history)
    (hhelp : p.front.helpVisible = false)
    (hentry : (new.reverse ++ p.state.history.entries)[p.front.historySelection]? = some e) : Replayed p new e where
  view := hview
  uncovered := hhelp
  entry := hentry
  same := by
    rintro rfl
    exact Picture.shows_of_marked hview hhelp hentry
  other := by
    rintro hnew hids seen hseen hid
    -- The entry of the frame has moved on by the number of new ones, so it is at two places if it is the one replayed.
    have hmoved : (new.reverse ++ p.state.history.entries)[new.length + p.front.historySelection]? = some seen := by
      rw [← hseen.marked, List.getElem?_append_right (by simp), List.length_reverse, Nat.add_sub_cancel_left]
    have hids_eq : ((new.reverse ++ p.state.history.entries).map (·.id))[p.front.historySelection]? =
        ((new.reverse ++ p.state.history.entries).map (·.id))[new.length + p.front.historySelection]? := by
      rw [List.getElem?_map, List.getElem?_map, hentry, hmoved, Option.map_some, Option.map_some, hid]
    have hlt := (List.getElem?_eq_some_iff.mp hentry).1
    have hsame := (List.getElem?_inj (by rwa [List.length_map]) hids).mp hids_eq
    exact hnew (List.length_eq_zero_iff.mp (by omega))

/-- Whatever the worker does between the parts of a turn, a key replays what the cursor of the last frame is on, counted
    from the newest entry that there is by then. -/
theorem replays_turns {c : Config} {b : Backend} {ms : Nat} {ts : List Turn} {t : Turn} {e : Entry}
    (h : ((start b ms).turns c ts).Replays c t e) :
    ∃ p, ((start b ms).turns c ts).picture? = some p ∧
      Replayed p (((start b ms).turns c ts).desk.recorded c t.toKey) e := by
  obtain ⟨hrunning, k, now, m, -, hsubmitted⟩ := h
  obtain ⟨hsound, hlast⟩ := current_turns c b ms ts hrunning
  obtain ⟨hmode, hhelp, hentry⟩ := Desk.replayed_of_submitted hsubmitted
  have hstill := Desk.still_run (c := c) (d := ((start b ms).turns c ts).desk) (isKey_toKey t)
  replace hmode := (congrArg Front.mode hstill).symm.trans hmode
  rcases hlast with hpicture | ⟨-, hclosed⟩
  · rw [hsound.cursor_run (isKey_toKey t), hsound.entries_run (isKey_toKey t), List.getElem?_take] at hentry
    refine ⟨_, hpicture, replayed_of_entry hmode ((congrArg Front.helpVisible hstill).symm.trans hhelp) ?_⟩
    split at hentry
    · exact hentry
    · cases hentry
  · exact absurd hmode hclosed

/-! ### A health check between a frame and a key -/

namespace Checked

def session : Session := ⟨"ops", "tok"⟩

/-- A payment callback, and before it a look at an order. -/
def log : History :=
  ⟨[⟨"2-2", "09:05:00", "Payment Callback", .order, .post, "/payments/callback", none, true, 200, 4⟩,
    ⟨"1-1", "09:00:00", "Get Order", .order, .get, "/orders/o-1", none, true, 200, 3⟩]⟩

def blobs : Blobs
  | .session => some session.toJson.write
  | .drafts => none
  | .history => some log.toJson.write

def opened : Store :=
  ⟨⟨some session, {}, log, .initial, .initial⟩, .reliable blobs, []⟩

theorem load_blobs : .load (.reliable blobs) = opened := by
  have hlog : State.loadHistory (some log.toJson.write) = log := by
    refine State.loadHistory_toJson ?_ (by decide)
    simp [log, Entry.Portable]
  rw [Store.load, State.ofBlobs]
  simp only [Backend.reliable, blobs, State.loadSession_toJson, hlog]
  rfl

def press (code : KeyCode) : Turn := { key? := some ({ code := code }, 0, ⟨0, 0, "00:00:00"⟩) }

/-- The gateway is being checked, the history is open, and the cursor is on the look at the order. -/
def screen : Display :=
  (start (.reliable blobs) 3000).turns .initial [press .down, press .enter, press (.char '5'), press .down]

theorem screen_eq : screen = ({ desk := .start opened 3000 } : Display).turns .initial
    [press .down, press .enter, press (.char '5'), press .down] := by
  rw [screen, start, load_blobs]

/-- A step of the worker to which the backend answers. -/
def step : WorkerEvent := ⟨.work (.answer ⟨200, "ok", 5⟩) ⟨3, 3, "09:10:00"⟩ 0, rfl⟩

/-- The check is answered and recorded before the tick, and then R is pressed. -/
def hasty : Turn := { press (.char 'r') with beforeTick := [⟨.begin, rfl⟩, step, step, step, step] }

theorem shown : ∃ p, screen.picture? = some p ∧ ∃ e, p.Shows e ∧ e.id = "1-1" := by
  have hpicture : (screen.picture?.map fun p => (p.front.mode, p.front.helpVisible,
      (p.state.history.entries[p.front.historySelection]?).map (·.id))) = some (.history, false, some "1-1") := by
    rw [screen_eq]
    decide +kernel
  obtain ⟨p, hp, hfields⟩ := Option.map_eq_some_iff.mp hpicture
  simp only [Prod.mk.injEq, Option.map_eq_some_iff] at hfields
  obtain ⟨hview, hhelp, e, he, hid⟩ := hfields
  exact ⟨p, hp, e, Picture.shows_of_marked hview hhelp he, hid⟩

theorem replays (id : String) {t : Turn} (hkey : t.key? = (press (.char 'r')).key?)
    (hdesk : (screen.desk.run .initial t.toKey).console.front.mode = .history ∧
      (screen.desk.run .initial t.toKey).console.front.helpVisible = false ∧
      ((screen.desk.run .initial t.toKey).store.state.history.entries[(screen.desk.run .initial
        t.toKey).console.front.historySelection]?).map (·.id) = some id) :
    ∃ e, screen.Replays .initial t e ∧ e.id = id := by
  obtain ⟨hmode, hhelp, hid⟩ := hdesk
  obtain ⟨e, he, hid⟩ := Option.map_eq_some_iff.mp hid
  have hrunning : screen.stopped = false := by
    rw [screen_eq]
    decide +kernel
  refine ⟨e, ⟨hrunning, _, _, _, hkey, ?_⟩, hid⟩
  rw [Desk.submitted_replay hmode hhelp he (Or.inr rfl)]
  exact List.mem_singleton_self _

end Checked

/-- While the check is still out, R replays the entry on the screen. -/
theorem replays_turns_of_idle :
    ∃ e, e.id = "1-1" ∧ Checked.screen.Replays .initial (Checked.press (.char 'r')) e ∧
      ∃ p, Checked.screen.picture? = some p ∧ p.Shows e := by
  obtain ⟨e, hreplays, hid⟩ := Checked.replays "1-1" (t := Checked.press (.char 'r')) rfl (by
    rw [Checked.screen_eq]
    decide +kernel)
  obtain ⟨p, hp, hreplayed⟩ := replays_turns hreplays
  exact ⟨e, hid, hreplays, p, hp, hreplayed.same rfl⟩

/-- Once it is recorded, R replays the payment callback while the look at the order is on the screen. -/
theorem replays_unseen :
    ∃ e, Checked.screen.Replays .initial Checked.hasty e ∧ e.id = "2-2" ∧
      ∃ p, Checked.screen.picture? = some p ∧ ∃ seen, p.Shows seen ∧ seen.id = "1-1" := by
  obtain ⟨e, hreplays, hid⟩ := Checked.replays "2-2" (t := Checked.hasty) rfl (by
    rw [Checked.screen_eq]
    decide +kernel)
  exact ⟨e, hreplays, hid, Checked.shown⟩

end Display

end Terminal

end TicketDesk
