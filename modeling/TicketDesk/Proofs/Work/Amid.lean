import Mathlib.Data.List.Basic
import TicketDesk.Proofs.Store.Writes
import TicketDesk.Proofs.Work.Sent

/-! # A program amid others

A program is done to its end while others change the store after each of its steps. What is seen of it are
its deeds, in order and between those of the others: the requests with what came of them, and the updates. The
store at the end is the one at the start after all the updates, whoever made them. -/

namespace TicketDesk

/-- What others do to the state when they have their turn. -/
abbrev Others (σ : Type) := σ → List Update × σ

/-- Something that happens while a program is done. -/
inductive Deed where
  /-- The program sends a request, and this comes of it. -/
  | sent (wire : Wire) (reply : Reply)
  /-- The program updates the state. -/
  | changed (updates : List Update)
  /-- Others update the state. -/
  | intruded (updates : List Update)

def Deed.updates : Deed → List Update
  | .sent _ _ => []
  | .changed us => us
  | .intruded us => us

/-- What a program does with requests and drafts. -/
inductive Act where
  | sent (wire : Wire) (reply : Reply)
  | edited (edit : DraftEdit)

def Act.ofExchange (ex : Wire × Reply) : Act := .sent ex.1 ex.2

def Act.exchange? : Act → Option (Wire × Reply)
  | .sent wire reply => some (wire, reply)
  | .edited _ => none

def Act.edit? : Act → Option DraftEdit
  | .sent _ _ => none
  | .edited edit => some edit

section

variable (exs : List (Wire × Reply)) (edits : List DraftEdit)

theorem Act.filterMap_exchange?_ofExchange : (exs.map ofExchange).filterMap exchange? = exs := by
  rw [List.filterMap_map]
  exact List.filterMap_some

theorem Act.filterMap_exchange?_edited : (edits.map edited).filterMap exchange? = [] := by
  rw [List.filterMap_map]
  exact List.filterMap_eq_nil_iff.mpr fun _ _ => rfl

theorem Act.filterMap_edit?_ofExchange : (exs.map ofExchange).filterMap edit? = [] := by
  rw [List.filterMap_map]
  exact List.filterMap_eq_nil_iff.mpr fun _ _ => rfl

theorem Act.filterMap_edit?_edited : (edits.map edited).filterMap edit? = edits := by
  rw [List.filterMap_map]
  exact List.filterMap_some

end

def Update.edit? : Update → Option DraftEdit
  | .drafts edit => some edit
  | _ => none

def Deed.acts : Deed → List Act
  | .sent wire reply => [.sent wire reply]
  | .changed us => (us.filterMap Update.edit?).map .edited
  | .intruded _ => []

def DraftEdit.after (d : Drafts) (edit : DraftEdit) : Drafts := (edit.apply d).1

theorem Store.drafts_updateAll_edits (s : Store) (us : List Update) :
    (s.updateAll us).state.drafts = (us.filterMap Update.edit?).foldl DraftEdit.after s.state.drafts := by
  induction us generalizing s with
  | nil => rfl
  | cons u us ih =>
    refine (ih (s.update u)).trans ?_
    cases u <;> rfl

/-- What a program has done, once it is done, and what it leaves. -/
structure Course (σ α : Type) where
  deeds : List Deed
  result : α
  store : Store
  world : σ

namespace Course

variable {σ α β : Type}

/-- The requests and the edits of the drafts that are the program's own, in order. -/
def acts (c : Course σ α) : List Act := c.deeds.flatMap Deed.acts

/-- The requests of the program, each with what came of it. -/
def exchanges (c : Course σ α) : List (Wire × Reply) := c.acts.filterMap Act.exchange?

/-- A course that other deeds come before. -/
def preceded (c : Course σ α) (deeds : List Deed) : Course σ α := { c with deeds := deeds ++ c.deeds }

/-- A course and then the one that its result leads to. -/
def followed (c : Course σ α) (rest : α → Store → σ → Course σ β) : Course σ β :=
  (rest c.result c.store c.world).preceded c.deeds

theorem followed_preceded (c : Course σ α) (deeds : List Deed) (rest : α → Store → σ → Course σ β) :
    (c.preceded deeds).followed rest = (c.followed rest).preceded deeds := by
  simp [followed, preceded]

theorem acts_followed (c : Course σ α) (rest : α → Store → σ → Course σ β) :
    (c.followed rest).acts = c.acts ++ (rest c.result c.store c.world).acts :=
  List.flatMap_append

section

variable {c : Course σ α} {first rest : List (Wire × Reply)} {edits : List DraftEdit}
  (h : c.acts = first.map .ofExchange ++ edits.map .edited ++ rest.map .ofExchange)

include h

theorem exchanges_of_acts : c.exchanges = first ++ rest := by
  simp only [exchanges, h, List.filterMap_append, Act.filterMap_exchange?_ofExchange, Act.filterMap_exchange?_edited,
    List.append_nil]

theorem edits_of_acts : c.acts.filterMap Act.edit? = edits := by
  simp only [h, List.filterMap_append, Act.filterMap_edit?_ofExchange, Act.filterMap_edit?_edited, List.append_nil,
    List.nil_append]

end

/-- The store is what the updates made of the one at the start. -/
def Accounted (s : Store) (c : Course σ α) : Prop := c.store = s.updateAll (c.deeds.flatMap Deed.updates)

theorem Accounted.preceded {s : Store} {c : Course σ α} {deeds : List Deed}
    (h : c.Accounted (s.updateAll (deeds.flatMap Deed.updates))) : (c.preceded deeds).Accounted s := by
  show c.store = s.updateAll ((deeds ++ c.deeds).flatMap Deed.updates)
  rw [List.flatMap_append, Store.updateAll_append]
  exact h

/-- The drafts at the end are those at the start after the edits, if all edits are the program's own. -/
theorem Accounted.drafts {s : Store} {c : Course σ α} (h : c.Accounted s)
    (hothers : ∀ us, Deed.intruded us ∈ c.deeds → us.filterMap Update.edit? = []) :
    c.store.state.drafts = (c.acts.filterMap Act.edit?).foldl DraftEdit.after s.state.drafts := by
  have hedits (deed : Deed) (hdeed : deed ∈ c.deeds) :
      deed.updates.filterMap Update.edit? = deed.acts.filterMap Act.edit? := by
    cases deed with
    | sent wire reply => rfl
    | changed us => exact (Act.filterMap_edit?_edited _).symm
    | intruded us => exact hothers us hdeed
  have hall : (c.deeds.flatMap Deed.updates).filterMap Update.edit? = c.acts.filterMap Act.edit? := by
    rw [acts, List.filterMap_flatMap, List.filterMap_flatMap]
    exact List.flatMap_congr hedits
  rw [show c.store = _ from h, Store.drafts_updateAll_edits, hall]

end Course

namespace Work

variable {σ α β : Type}

/-- Goes on after some deeds, once the others have had their turn. -/
def interrupted (others : Others σ) (rest : Store → σ → Course σ α) (deeds : List Deed) (s : Store) (x : σ) :
    Course σ α :=
  let o := others x
  (rest (s.updateAll o.1) o.2).preceded (deeds ++ [.intruded o.1])

/-- Does a program to its end, with others after each of its steps. -/
def amid (w : World σ) (others : Others σ) : Work α → Store → σ → Course σ α
  | .done a, s, x => ⟨[], a, s, x⟩
  | .look next, s, x => interrupted others ((next s.state).amid w others) [] s x
  | .change us next, s, x => interrupted others (next.amid w others) [.changed us] (s.updateAll us) x
  | .send wire next, s, x =>
    let r := w.send wire x
    interrupted others ((next r.1).amid w others) [.sent wire r.1] s r.2
  | .moment next, s, x =>
    let m := w.moment x
    interrupted others ((next m.1).amid w others) [] s m.2
  | .say line next, s, x => interrupted others (next.amid w others) [] s (w.say line x)
  | .wait millis next, s, x =>
    let t := w.wait millis x
    interrupted others ((next t.1).amid w others) [] s t.2

section

variable {w : World σ} {others : Others σ}

/-- With others that leave the state alone, a course is a run. -/
theorem amid_alone (work : Work α) (s : Store) (x : σ) :
    let course := work.amid w (fun x => ([], x)) s x
    (course.result, course.store, course.world) = work.run w s x := by
  induction work generalizing s x with
  | done a => rfl
  | look next ih => exact ih _ _ _
  | change us next ih => exact ih _ _
  | send wire next ih => exact ih _ _ _
  | moment next ih => exact ih _ _ _
  | say line next ih => exact ih _ _
  | wait millis next ih => exact ih _ _ _

theorem exchanges_alone (work : Work α) (s : Store) (x : σ) :
    (work.amid w (fun x => ([], x)) s x).exchanges = work.exchanges w s x := by
  induction work generalizing s x with
  | done a => rfl
  | look next ih => exact ih _ _ _
  | change us next ih =>
    refine Eq.trans ?_ (ih (s.updateAll us) x)
    show (((us.filterMap Update.edit?).map Act.edited ++ Course.acts _).filterMap Act.exchange?) = _
    rw [List.filterMap_append, Act.filterMap_exchange?_edited]
    rfl
  | send wire next ih => exact congrArg ((wire, (w.send wire x).1) :: ·) (ih _ _ _)
  | moment next ih => exact ih _ _ _
  | say line next ih => exact ih _ _
  | wait millis next ih => exact ih _ _ _

theorem accounted_interrupted (others : Others σ) {rest : Store → σ → Course σ α}
    (hrest : ∀ s x, (rest s x).Accounted s) (deeds : List Deed) (s : Store) (x : σ) :
    (interrupted others rest deeds (s.updateAll (deeds.flatMap Deed.updates)) x).Accounted s := by
  refine Course.Accounted.preceded ?_
  rw [List.flatMap_append, Store.updateAll_append, List.flatMap_singleton]
  exact hrest _ _

theorem accounted_amid (w : World σ) (others : Others σ) (work : Work α) (s : Store) (x : σ) :
    (work.amid w others s x).Accounted s := by
  induction work generalizing s x with
  | done a => rfl
  | look next ih => exact accounted_interrupted others (ih s.state) [] s x
  | change us next ih =>
    have haccounted := accounted_interrupted others ih [.changed us] s x
    rwa [List.flatMap_singleton] at haccounted
  | send wire next ih => exact accounted_interrupted others (ih _) [.sent wire _] s _
  | moment next ih => exact accounted_interrupted others (ih _) [] s _
  | say line next ih => exact accounted_interrupted others ih [] s _
  | wait millis next ih => exact accounted_interrupted others (ih _) [] s _

theorem interrupted_followed (rest : Store → σ → Course σ α) (next : α → Store → σ → Course σ β) :
    interrupted others (fun s x => (rest s x).followed next) =
      fun deeds s x => (interrupted others rest deeds s x).followed next := by
  funext deeds s x
  exact (Course.followed_preceded _ _ _).symm

theorem amid_bind (f : α → Work β) (work : Work α) :
    (work.bind f).amid w others = fun s x => (work.amid w others s x).followed fun a => (f a).amid w others := by
  induction work with
  | done a => rfl
  | _ =>
    rename_i ih
    simp only [bind, amid, ih, interrupted_followed]

/-- After a success the course goes on. -/
theorem amid_onSuccess_ok {f : α → Work (Except Fault β)} {work : Work (Except Fault α)} {s : Store} {x : σ} {a : α}
    (h : (work.amid w others s x).result = .ok a) :
    (work.onSuccess f).amid w others s x = (work.amid w others s x).followed fun _ => (f a).amid w others := by
  rw [onSuccess, amid_bind]
  simp only [Course.followed, h]

/-- A fault ends the course. -/
theorem amid_onSuccess_error {f : α → Work (Except Fault β)} {work : Work (Except Fault α)} {s : Store} {x : σ}
    {e : Fault} (h : (work.amid w others s x).result = .error e) :
    (work.onSuccess f).amid w others s x = { work.amid w others s x with result := .error e } := by
  rw [onSuccess, amid_bind]
  simp only [Course.followed, h, amid, Course.preceded, List.append_nil]

/-- To make something else of the value of a success changes nothing in a course. -/
theorem amid_onSuccess_done (g : α → β) (work : Work (Except Fault α)) (s : Store) (x : σ) :
    (work.onSuccess fun a => .done (.ok (g a))).amid w others s x =
      { work.amid w others s x with result := (work.amid w others s x).result.map g } := by
  cases h : (work.amid w others s x).result with
  | ok a =>
    rw [amid_onSuccess_ok h]
    simp only [Course.followed, amid, Course.preceded, List.append_nil]
    rfl
  | error e => exact amid_onSuccess_error h

end

end Work

end TicketDesk
