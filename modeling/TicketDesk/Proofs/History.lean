import Mathlib.Data.List.Induction
import TicketDesk.Store

/-! # What a log retains

A log is the front of a list that never drops an entry. It is cut where it is loaded and at every entry
recorded, the list never; both come to the same, since an entry that was cut off stands behind a hundred others
until the next clear, and is never among the first hundred again. -/

namespace TicketDesk

namespace History

/-- Something that is done to a log. -/
inductive Change where
  | record (e : Entry)
  | clear

/-- The entry that a change adds. -/
def Change.entry? : Change → Option Entry
  | .record e => some e
  | .clear => none

def after (h : History) : Change → History
  | .record e => h.record e
  | .clear => .empty

def run (h : History) (cs : List Change) : History := cs.foldl after h

/-- The entries that a list has after a change when none is ever dropped. -/
def grown (es : List Entry) : Change → List Entry
  | .record e => e :: es
  | .clear => []

/-- The list that begins as the persisted one and never drops an entry. -/
def unbounded (persisted : List Entry) (cs : List Change) : List Entry := cs.foldl grown persisted

/-- What a log has after changes, told by the list that never drops an entry. -/
structure Retained (persisted : List Entry) (cs : List Change) (h : History) : Prop where
  front : h.entries = (unbounded persisted cs).take 100
  bounded : h.entries.length ≤ 100
  /-- The entries recorded since any point without a clear after it stand first, the last one before all others,
      and those from before that point follow. -/
  newestFirst : ∀ earlier later, cs = earlier ++ later → .clear ∉ later →
    h.entries = ((later.filterMap Change.entry?).reverse ++ unbounded persisted earlier).take 100
  /-- What is missing is the end of the list, and nothing is missing from a log that is not full. -/
  oldestDropped : ∃ oldest, unbounded persisted cs = h.entries ++ oldest ∧ (oldest ≠ [] → h.entries.length = 100)

/-! ### One change -/

/-- Cutting before a change, too, makes no difference after it. -/
theorem take_grown_take (es : List Entry) (c : Change) :
    (grown (es.take capacity) c).take capacity = (grown es c).take capacity := by
  cases c with
  | record e =>
    show (e :: es.take capacity).take capacity = (e :: es).take capacity
    rw [capacity, List.take_succ_cons, List.take_succ_cons, List.take_take]
    rfl
  | clear => rfl

theorem entries_after (h : History) (c : Change) : (h.after c).entries = (grown h.entries c).take capacity := by
  cases c <;> rfl

/-! ### Runs -/

theorem unbounded_append (persisted : List Entry) (earlier later : List Change) :
    unbounded persisted (earlier ++ later) = unbounded (unbounded persisted earlier) later :=
  List.foldl_append

theorem entries_run (persisted : List Entry) (cs : List Change) :
    ((ofEntries persisted).run cs).entries = (unbounded persisted cs).take capacity := by
  induction cs using List.reverseRecOn with
  | nil => rfl
  | append_singleton cs c ih =>
    have hrun : (ofEntries persisted).run (cs ++ [c]) = ((ofEntries persisted).run cs).after c := List.foldl_append
    rw [hrun, entries_after, ih, take_grown_take, unbounded_append]
    rfl

/-- Without a clear, the recorded entries are put in front one by one. -/
theorem unbounded_of_no_clear (es : List Entry) {cs : List Change} (h : .clear ∉ cs) :
    unbounded es cs = (cs.filterMap Change.entry?).reverse ++ es := by
  induction cs generalizing es with
  | nil => rfl
  | cons c cs ih =>
    rw [List.mem_cons, not_or] at h
    cases c with
    | record e =>
      have hrest : unbounded es (.record e :: cs) = unbounded (e :: es) cs := rfl
      rw [hrest, ih (e :: es) h.2]
      simp [Change.entry?]
    | clear => exact absurd rfl h.1

theorem retained_of_front {persisted : List Entry} {cs : List Change} {h : History}
    (hfront : h.entries = (unbounded persisted cs).take capacity) : Retained persisted cs h where
  front := hfront
  bounded := by
    rw [hfront]
    exact List.length_take_le _ _
  newestFirst earlier later hcs hclear := by
    rw [hfront, hcs, unbounded_append, unbounded_of_no_clear _ hclear]
    rfl
  oldestDropped := by
    refine ⟨(unbounded persisted cs).drop capacity, ?_, fun hne => ?_⟩
    · rw [hfront, List.take_append_drop]
    · have hlong : capacity < (unbounded persisted cs).length := by
        by_contra hshort
        exact hne (List.drop_of_length_le (Nat.not_lt.mp hshort))
      rw [hfront, List.length_take_of_le (Nat.le_of_lt hlong)]
      rfl

end History

/-! ### Logs in a store -/

/-- The entries that a text holds, of which a log keeps the first; none when it is absent or holds no log. -/
def State.storedEntries (blob : Option String) : List Entry := (blob.bind (Json.decode? History.decoder)).getD []

/-- What an update does to the log. -/
def Update.logChange? : Update → Option History.Change
  | .record e => some (.record e)
  | .clearHistory => some .clear
  | _ => none

theorem Store.history_updateAll (s : Store) (us : List Update) :
    (s.updateAll us).state.history = s.state.history.run (us.filterMap Update.logChange?) := by
  induction us generalizing s with
  | nil => rfl
  | cons u us ih =>
    have hrest : s.updateAll (u :: us) = (s.update u).updateAll us := rfl
    rw [hrest, ih]
    cases u <;> rfl

/-- Whatever is loaded and whatever is recorded and cleared, a log has the hundred newest entries of the list
    that never drops any. So has the log of a store after any updates, whether their writes succeed or not. -/
theorem History.retained_run :
    (∀ (persisted : List Entry) (cs : List Change), Retained persisted cs ((ofEntries persisted).run cs)) ∧
    ∀ (b : Backend) (us : List Update),
      Retained (State.storedEntries (b.blobs .history)) (us.filterMap Update.logChange?)
        ((Store.load b).updateAll us).state.history := by
  have hrun (persisted : List Entry) (cs : List Change) : Retained persisted cs ((ofEntries persisted).run cs) :=
    retained_of_front (entries_run persisted cs)
  refine ⟨hrun, fun b us => ?_⟩
  have hloaded : (Store.load b).state.history = ofEntries (State.storedEntries (b.blobs .history)) := rfl
  rw [Store.history_updateAll, hloaded]
  exact hrun _ _

end TicketDesk
