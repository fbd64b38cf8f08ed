import TicketDesk.Work

/-! # The course of a program

Others may change the store between two steps of a program, so each step finds a state of its own. What the
steps meet, one after the other, decides what is left of the program and what it has sent by then. -/

namespace TicketDesk

/-- A world that says one and the same whenever it is asked. -/
def World.saying (reply : Reply) (moment : Moment) (clock : Int) : World Unit where
  send _ _ := (reply, ())
  moment _ := (moment, ())
  say _ _ := ()
  wait _ _ := (clock, ())

/-- What one step of a program meets: the state as it is then, and what the world says. -/
structure Stage where
  state : State
  reply : Reply
  moment : Moment
  clock : Int

namespace Work

variable {α : Type}

/-- What a step leaves of a program. -/
def next (st : Stage) : Work α → Work α
  | .done a => .done a
  | .look next => next st.state
  | .change _ next => next
  | .send _ next => next st.reply
  | .moment next => next st.moment
  | .say _ next => next
  | .wait _ next => next st.clock

/-- The updates that the first step of a program makes. -/
def updates : Work α → List Update
  | .change us _ => us
  | _ => []

/-- The request that the first step of a program sends. -/
def outgoing : Work α → List Wire
  | .send wire _ => [wire]
  | _ => []

theorem step_saying (reply : Reply) (moment : Moment) (clock : Int) (work : Work α) (s : Store) :
    work.step (.saying reply moment clock) s () =
      (work.next ⟨s.state, reply, moment, clock⟩, s.updateAll work.updates, ()) := by
  cases work <;> rfl

/-- What is left of a program after steps that meet one thing after the other. -/
def along (work : Work α) (sts : List Stage) : Work α := sts.foldl (fun work st => work.next st) work

theorem along_append (work : Work α) (sts sts' : List Stage) :
    work.along (sts ++ sts') = (work.along sts).along sts' :=
  List.foldl_append

/-- The requests that a program sends in steps that meet one thing after the other. -/
def sentAlong : Work α → List Stage → List Wire
  | _, [] => []
  | work, st :: sts => work.outgoing ++ (work.next st).sentAlong sts

theorem sentAlong_append (work : Work α) (sts sts' : List Stage) :
    work.sentAlong (sts ++ sts') = work.sentAlong sts ++ (work.along sts).sentAlong sts' := by
  induction sts generalizing work with
  | nil => rfl
  | cons st sts ih =>
    rw [List.cons_append, sentAlong, sentAlong, ih, List.append_assoc]
    rfl

end Work

end TicketDesk
