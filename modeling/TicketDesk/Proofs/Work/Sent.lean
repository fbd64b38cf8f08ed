import TicketDesk.Work

/-! # The requests of a run

The requests that a run of a program sends, in the order in which they go out, and what comes of each. -/

namespace TicketDesk.Work

/-- The requests that a program sends when it is done to its end. -/
def sent {σ α : Type} (w : World σ) : Work α → Store → σ → List Wire
  | .done _, _, _ => []
  | .look next, s, x => (next s.state).sent w s x
  | .change us next, s, x => next.sent w (s.updateAll us) x
  | .send wire next, s, x =>
    let r := w.send wire x
    wire :: (next r.1).sent w s r.2
  | .moment next, s, x =>
    let m := w.moment x
    (next m.1).sent w s m.2
  | .say line next, s, x => next.sent w s (w.say line x)
  | .wait millis next, s, x =>
    let t := w.wait millis x
    (next t.1).sent w s t.2

/-- The requests of a program that is done to its end, each with what came of it. -/
def exchanges {σ α : Type} (w : World σ) : Work α → Store → σ → List (Wire × Reply)
  | .done _, _, _ => []
  | .look next, s, x => (next s.state).exchanges w s x
  | .change us next, s, x => next.exchanges w (s.updateAll us) x
  | .send wire next, s, x =>
    let r := w.send wire x
    (wire, r.1) :: (next r.1).exchanges w s r.2
  | .moment next, s, x =>
    let m := w.moment x
    (next m.1).exchanges w s m.2
  | .say line next, s, x => next.exchanges w s (w.say line x)
  | .wait millis next, s, x =>
    let t := w.wait millis x
    (next t.1).exchanges w s t.2

/-- The requests that were answered, with their answers. -/
def answered (exs : List (Wire × Reply)) : List (Wire × Answer) :=
  exs.filterMap fun
    | (wire, .answer a) => some (wire, a)
    | (_, .unreachable _) => none

variable {σ α β : Type} {w : World σ}

theorem run_bind (f : α → Work β) (work : Work α) (s : Store) (x : σ) :
    (work.bind f).run w s x =
      (f (work.run w s x).1).run w (work.run w s x).2.1 (work.run w s x).2.2 := by
  induction work generalizing s x with
  | done a => rfl
  | look next ih => exact ih _ _ _
  | change us next ih => exact ih _ _
  | send wire next ih => exact ih _ _ _
  | moment next ih => exact ih _ _ _
  | say line next ih => exact ih _ _
  | wait millis next ih => exact ih _ _ _

theorem sent_bind (f : α → Work β) (work : Work α) (s : Store) (x : σ) :
    (work.bind f).sent w s x =
      work.sent w s x ++ (f (work.run w s x).1).sent w (work.run w s x).2.1 (work.run w s x).2.2 := by
  induction work generalizing s x with
  | done a => rfl
  | look next ih => exact ih _ _ _
  | change us next ih => exact ih _ _
  | send wire next ih => exact congrArg (wire :: ·) (ih _ _ _)
  | moment next ih => exact ih _ _ _
  | say line next ih => exact ih _ _
  | wait millis next ih => exact ih _ _ _

theorem exchanges_bind (f : α → Work β) (work : Work α) (s : Store) (x : σ) :
    (work.bind f).exchanges w s x =
      work.exchanges w s x ++ (f (work.run w s x).1).exchanges w (work.run w s x).2.1 (work.run w s x).2.2 := by
  induction work generalizing s x with
  | done a => rfl
  | look next ih => exact ih _ _ _
  | change us next ih => exact ih _ _
  | send wire next ih => exact congrArg ((wire, (w.send wire x).1) :: ·) (ih _ _ _)
  | moment next ih => exact ih _ _ _
  | say line next ih => exact ih _ _
  | wait millis next ih => exact ih _ _ _

/-- What a run sends, and what comes of it, are one list of requests. -/
theorem map_fst_exchanges (work : Work α) (s : Store) (x : σ) :
    (work.exchanges w s x).map Prod.fst = work.sent w s x := by
  induction work generalizing s x with
  | done a => rfl
  | look next ih => exact ih _ _ _
  | change us next ih => exact ih _ _
  | send wire next ih => exact congrArg (wire :: ·) (ih _ _ _)
  | moment next ih => exact ih _ _ _
  | say line next ih => exact ih _ _
  | wait millis next ih => exact ih _ _ _

theorem answered_append (exs exs' : List (Wire × Reply)) : answered (exs ++ exs') = answered exs ++ answered exs' :=
  List.filterMap_append

/-- After a success the run goes on, and a fault ends it. -/
theorem run_onSuccess (f : α → Work (Except Fault β)) (work : Work (Except Fault α)) (s : Store) (x : σ) :
    (work.onSuccess f).run w s x = match work.run w s x with
      | (.ok a, t, y) => (f a).run w t y
      | (.error e, t, y) => (.error e, t, y) := by
  rw [onSuccess, run_bind]
  rcases work.run w s x with ⟨outcome, t, y⟩
  cases outcome <;> rfl

theorem exchanges_onSuccess (f : α → Work (Except Fault β)) (work : Work (Except Fault α)) (s : Store) (x : σ) :
    (work.onSuccess f).exchanges w s x = work.exchanges w s x ++ match work.run w s x with
      | (.ok a, t, y) => (f a).exchanges w t y
      | (.error _, _, _) => [] := by
  rw [onSuccess, exchanges_bind]
  rcases work.run w s x with ⟨outcome, t, y⟩
  cases outcome <;> rfl

/-- To make something else of the value of a success changes nothing in a run. -/
theorem run_onSuccess_done (g : α → β) (work : Work (Except Fault α)) (s : Store) (x : σ) :
    (work.onSuccess fun a => .done (.ok (g a))).run w s x = ((work.run w s x).1.map g, (work.run w s x).2) := by
  rw [run_onSuccess]
  rcases work.run w s x with ⟨outcome, t, y⟩
  cases outcome <;> rfl

theorem exchanges_onSuccess_done (g : α → β) (work : Work (Except Fault α)) (s : Store) (x : σ) :
    (work.onSuccess fun a => .done (.ok (g a))).exchanges w s x = work.exchanges w s x := by
  rw [exchanges_onSuccess]
  rcases work.run w s x with ⟨outcome, t, y⟩
  cases outcome <;> exact List.append_nil _

theorem sent_onSuccess {f : α → Work (Except Fault β)} {work : Work (Except Fault α)}
    (hf : ∀ a s x, (f a).sent w s x = []) (s : Store) (x : σ) : (work.onSuccess f).sent w s x = work.sent w s x := by
  rw [onSuccess, sent_bind]
  split
  · rw [hf, List.append_nil]
  · exact List.append_nil _

end TicketDesk.Work
