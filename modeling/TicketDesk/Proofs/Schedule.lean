import Mathlib.Data.List.Induction
import TicketDesk.Poll

/-! # What a schedule answers

A schedule keeps one time, the next one at which a poll is due. Told by the operations made on it instead,
the interval counts from the last of them that switched it on or found a poll due, whatever was looked at,
switched or missed before. So two polls that are due are an interval apart, also when the schedule was off
and on again in between, as long as the times that it is given do not go back. -/

namespace TicketDesk.Poller

/-- Something that is done with a schedule. -/
inductive Operation where
  | enable (now : Int)
  | disable
  | toggle (now : Int)
  /-- Asks whether a poll is due. -/
  | due (now : Int)

/-- The time that an operation is given. -/
def Operation.time? : Operation → Option Int
  | .enable now => some now
  | .disable => none
  | .toggle now => some now
  | .due now => some now

def after (p : Poller) : Operation → Poller
  | .enable now => p.enable now
  | .disable => p.disable
  | .toggle now => p.toggle now
  | .due now => (p.due now).2

def run (p : Poller) (ops : List Operation) : Poller := ops.foldl after p

/-! ### The operations of a run -/

/-- Whether a schedule that was off is on after an operation on it. -/
def switched (on : Bool) : Operation → Bool
  | .enable _ => true
  | .disable => false
  | .toggle _ => !on
  | .due _ => on

/-- Whether a new schedule is on after operations. -/
def isOn (ops : List Operation) : Bool := ops.foldl switched false

/-- The time of an operation that finds a poll due, after others. -/
def answer? (p : Poller) (before : List Operation) : Operation → Option Int
  | .due now => if ((p.run before).due now).1 then some now else none
  | _ => none

/-- The time of an operation from which the interval counts, after others: it starts a period in which the
    schedule is on, starts it over, or finds a poll due in it. -/
def anchor? (p : Poller) (before : List Operation) : Operation → Option Int
  | .enable now => some now
  | .toggle now => if isOn before then none else some now
  | .disable => none
  | .due now => p.answer? before (.due now)

/-- The times that the operations of a run give, each told what was done before it. -/
def collect (f : List Operation → Operation → Option Int) (before : List Operation) : List Operation → List Int
  | [] => []
  | op :: rest => (f before op).toList ++ collect f (before ++ [op]) rest

/-- The times at which a poll was due, in the order in which they were asked for. -/
def answers (p : Poller) (ops : List Operation) : List Int := collect p.answer? [] ops

/-- The times from which the interval counted, in the order of the operations. -/
def anchors (p : Poller) (ops : List Operation) : List Int := collect p.anchor? [] ops

section

variable {f g : List Operation → Operation → Option Int} {p : Poller} {op : Operation} {before ops : List Operation}

theorem collect_concat : collect f before (ops ++ [op]) = collect f before ops ++ (f (before ++ ops) op).toList := by
  induction ops generalizing before with
  | nil => simp [collect]
  | cons first rest ih => simp [collect, ih]

theorem collect_sublist (h : ∀ before op, (f before op).toList.Sublist (g before op).toList) :
    (collect f before ops).Sublist (collect g before ops) := by
  induction ops generalizing before with
  | nil => exact List.Sublist.refl _
  | cons op rest ih => exact (h before op).append ih

theorem collect_time? : collect (fun _ => Operation.time?) before ops = ops.filterMap Operation.time? := by
  induction ops generalizing before with
  | nil => rfl
  | cons op rest ih =>
    rw [collect, ih, List.filterMap_cons]
    cases op.time? <;> rfl

theorem run_concat : p.run (ops ++ [op]) = (p.run ops).after op := List.foldl_append

theorem isOn_concat : isOn (ops ++ [op]) = switched (isOn ops) op := List.foldl_append

theorem anchors_concat : p.anchors (ops ++ [op]) = p.anchors ops ++ (p.anchor? ops op).toList := collect_concat

theorem answers_concat : p.answers (ops ++ [op]) = p.answers ops ++ (p.answer? ops op).toList := collect_concat

/-- The interval counts from every poll that was due. -/
theorem answers_sublist_anchors : (p.answers ops).Sublist (p.anchors ops) := by
  refine collect_sublist fun before op => ?_
  cases op with
  | due now => exact List.Sublist.refl _
  | _ => exact List.nil_sublist _

theorem anchors_sublist_times : (p.anchors ops).Sublist (ops.filterMap Operation.time?) := by
  rw [← collect_time?, anchors]
  refine collect_sublist fun before op => ?_
  cases op with
  | enable now => exact List.Sublist.refl _
  | disable => exact List.nil_sublist _
  | toggle now =>
    rw [anchor?]
    split
    · exact List.nil_sublist _
    · exact List.Sublist.refl _
  | due now =>
    rw [anchor?, answer?]
    split
    · exact List.Sublist.refl _
    · exact List.nil_sublist _

end

/-! ### The next poll -/

theorem due_of_lt {p : Poller} {next now : Int} (hnext : p.nextDue = some next) (h : now < next) :
    p.due now = (false, p) := by
  simp [due, hnext, Int.not_le.mpr h]

theorem due_of_le {p : Poller} {next now : Int} (hnext : p.nextDue = some next) (h : next ≤ now) :
    p.due now = (true, { p with nextDue := some (now + p.interval) }) := by
  simp [due, hnext, h]

theorem due_eq_true_iff {p : Poller} {now : Int} : (p.due now).1 = true ↔ ∃ next, p.nextDue = some next ∧ next ≤ now := by
  rw [due]
  cases p.nextDue with
  | none => simp
  | some next => by_cases h : next ≤ now <;> simp [h]

theorem nextDue_due (p : Poller) (now : Int) :
    (p.due now).2.nextDue = if (p.due now).1 then some (now + p.interval) else p.nextDue := by
  rw [due]
  cases hnext : p.nextDue with
  | none => exact hnext
  | some next => by_cases h : next ≤ now <;> simp [h, hnext]

theorem generation_due (p : Poller) (now : Int) : (p.due now).2.generation = p.generation := by
  rw [due]
  split
  · split <;> rfl
  · rfl

theorem interval_after (p : Poller) (op : Operation) : (p.after op).interval = p.interval := by
  cases op with
  | enable now => rfl
  | disable => rfl
  | toggle now =>
    rw [after, toggle]
    split <;> rfl
  | due now =>
    rw [after, due]
    cases p.nextDue with
    | none => rfl
    | some next => by_cases h : next ≤ now <;> simp [h]

theorem interval_run (p : Poller) (ops : List Operation) : (p.run ops).interval = p.interval := by
  induction ops using List.reverseRecOn with
  | nil => rfl
  | append_singleton ops op ih => rw [run_concat, interval_after, ih]

/-- What a new schedule keeps, told by the operations: nothing while it is off, and otherwise the time that is an
    interval after the last one that counts. -/
structure Kept (p : Poller) (ops : List Operation) : Prop where
  off : isOn ops = false → (p.run ops).nextDue = none
  on : isOn ops = true → ∃ r, (p.anchors ops).getLast? = some r ∧ (p.run ops).nextDue = some (r + p.interval)

section Keeping

variable {p : Poller} {ops : List Operation}

theorem Kept.isEnabled (h : p.Kept ops) : (p.run ops).isEnabled = isOn ops := by
  rw [Poller.isEnabled]
  cases hon : isOn ops with
  | false => rw [h.off hon]; rfl
  | true =>
    obtain ⟨r, -, hnext⟩ := h.on hon
    rw [hnext]
    rfl

/-- Switched on, the schedule counts from the time of the operation. -/
theorem kept_of_on {op : Operation} (now : Int) (hon : switched (isOn ops) op = true) (ha : p.anchor? ops op = some now)
    (hnext : ((p.run ops).after op).nextDue = some (now + p.interval)) : p.Kept (ops ++ [op]) where
  off hoff := by
    rw [isOn_concat, hon] at hoff
    cases hoff
  on _ := ⟨now, by simp [anchors_concat, ha], by rw [run_concat, hnext]⟩

theorem kept_of_off {op : Operation} (hoff : switched (isOn ops) op = false)
    (hnext : ((p.run ops).after op).nextDue = none) : p.Kept (ops ++ [op]) where
  off _ := by rw [run_concat, hnext]
  on hon := by
    rw [isOn_concat, hoff] at hon
    cases hon

theorem Kept.due (h : p.Kept ops) (now : Int) : p.Kept (ops ++ [.due now]) := by
  have hnext : ((p.run ops).after (.due now)).nextDue = _ := nextDue_due (p.run ops) now
  rw [interval_run] at hnext
  by_cases hdue : ((p.run ops).due now).1 = true
  · have hon : isOn ops = true := by
      by_contra hoff
      simp [due_eq_true_iff, h.off (by simpa using hoff)] at hdue
    exact kept_of_on now hon (by simp [anchor?, answer?, hdue]) (by rw [hnext, if_pos hdue])
  · have hsame : p.anchors (ops ++ [.due now]) = p.anchors ops := by
      simp [anchors_concat, anchor?, answer?, hdue]
    rw [if_neg hdue] at hnext
    exact {
      off := fun hoff => by
        rw [isOn_concat] at hoff
        rw [run_concat, hnext, h.off hoff]
      on := fun hon => by
        rw [isOn_concat] at hon
        rw [run_concat, hnext, hsame]
        exact h.on hon }

theorem Kept.toggle (h : p.Kept ops) (now : Int) : p.Kept (ops ++ [.toggle now]) := by
  have hon := h.isEnabled
  cases hwas : isOn ops with
  | false =>
    refine kept_of_on now (by rw [hwas]; rfl) (by simp [anchor?, hwas]) ?_
    rw [after, Poller.toggle, hon, hwas, if_neg (by decide), enable, interval_run]
  | true =>
    refine kept_of_off (by rw [hwas]; rfl) ?_
    rw [after, Poller.toggle, hon, hwas, if_pos rfl, disable]

theorem Kept.after (h : p.Kept ops) (op : Operation) : p.Kept (ops ++ [op]) := by
  cases op with
  | enable now => exact kept_of_on now rfl rfl (by rw [Poller.after, enable, interval_run])
  | disable => exact kept_of_off rfl rfl
  | toggle now => exact h.toggle now
  | due now => exact h.due now

end Keeping

theorem kept_run (interval : Nat) (ops : List Operation) : ({ interval := interval } : Poller).Kept ops := by
  induction ops using List.reverseRecOn with
  | nil => exact ⟨fun _ => rfl, fun hon => by cases hon⟩
  | append_singleton ops op ih => exact ih.after op

/-! ### The schedule -/

/-- What a schedule answers after operations, told by the operations. -/
structure Scheduled (p : Poller) (ops : List Operation) : Prop where
  isEnabled : (p.run ops).isEnabled = isOn ops
  /-- While the schedule is on, there is a last time from which the interval counts. -/
  counts : isOn ops = true → ∃ r, (p.anchors ops).getLast? = some r
  /-- A poll is due when the schedule is on and an interval has gone by since that time. -/
  due : ∀ now, ((p.run ops).due now).1 = true ↔
    isOn ops = true ∧ ∃ r, (p.anchors ops).getLast? = some r ∧ r + p.interval ≤ now
  /-- If time does not go back, any two polls that were due are an interval apart. -/
  apart : (ops.filterMap Operation.time?).Pairwise (· ≤ ·) →
    (p.answers ops).Pairwise fun (earlier later : Int) => earlier + p.interval ≤ later

section

variable {p : Poller} {ops : List Operation}

theorem Kept.due_iff (h : p.Kept ops) (now : Int) : ((p.run ops).due now).1 = true ↔
    isOn ops = true ∧ ∃ r, (p.anchors ops).getLast? = some r ∧ r + p.interval ≤ now := by
  rw [due_eq_true_iff]
  cases hon : isOn ops with
  | false => simp [h.off hon]
  | true =>
    obtain ⟨r, hlast, hnext⟩ := h.on hon
    simp [hlast, hnext]

/-- The last time from which the interval counts is the greatest one if time does not go back. -/
theorem le_getLast?_anchors (hsorted : (ops.filterMap Operation.time?).Pairwise (· ≤ ·)) {t r : Int}
    (ht : t ∈ p.anchors ops) (hr : (p.anchors ops).getLast? = some r) : t ≤ r := by
  obtain ⟨earlier, heq⟩ := List.getLast?_eq_some_iff.mp hr
  have hle := hsorted.sublist (anchors_sublist_times (p := p))
  rw [heq] at hle ht
  rcases List.mem_append.mp ht with ht | ht
  · exact (List.pairwise_append.mp hle).2.2 t ht r (List.mem_singleton_self r)
  · exact Int.le_of_eq (List.mem_singleton.mp ht)

end

theorem pairwise_answers (interval : Nat) {ops : List Operation}
    (hsorted : (ops.filterMap Operation.time?).Pairwise (· ≤ ·)) :
    (({ interval := interval } : Poller).answers ops).Pairwise fun (earlier later : Int) => earlier + interval ≤ later := by
  induction ops using List.reverseRecOn with
  | nil => exact List.Pairwise.nil
  | append_singleton ops op ih =>
    rw [List.filterMap_append] at hsorted
    have hbefore := (List.pairwise_append.mp hsorted).1
    rw [answers_concat]
    cases hans : answer? _ ops op with
    | none => simpa using ih hbefore
    | some now =>
      obtain ⟨hdue, rfl⟩ : ((({ interval := interval } : Poller).run ops).due now).1 = true ∧ op = .due now := by
        cases op with
        | due t =>
          rw [answer?] at hans
          split at hans
          · next hdue =>
            obtain rfl := Option.some.inj hans
            exact ⟨hdue, rfl⟩
          · cases hans
        | _ => cases hans
      obtain ⟨-, r, hlast, hle⟩ := ((kept_run interval ops).due_iff now).mp hdue
      refine List.pairwise_append.mpr ⟨ih hbefore, List.pairwise_singleton _ _, fun t ht later hlater => ?_⟩
      obtain rfl : later = now := by simpa using hlater
      -- An earlier poll is not after the last time that counts, wherever the schedule was off in between.
      have ht' := le_getLast?_anchors hbefore (answers_sublist_anchors.subset ht) hlast
      have hle : r + (interval : Int) ≤ later := hle
      omega

/-- Whatever is done with a new schedule, at whatever times, it answers by the interval from the last time that
    counts. -/
theorem scheduled_run (interval : Nat) (ops : List Operation) : ({ interval := interval } : Poller).Scheduled ops where
  isEnabled := (kept_run interval ops).isEnabled
  counts hon := by
    obtain ⟨r, hlast, -⟩ := (kept_run interval ops).on hon
    exact ⟨r, hlast⟩
  due := (kept_run interval ops).due_iff
  apart := pairwise_answers interval

end TicketDesk.Poller
