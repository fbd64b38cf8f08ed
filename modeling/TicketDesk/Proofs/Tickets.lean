import Mathlib.Data.List.Count
import TicketDesk.Proofs.Schedule
import TicketDesk.Proofs.Work.Sent
import TicketDesk.Task

/-! # What a ticket is worth

A ticket is a copy of the generation of the poller, which every switch moves on by one. So a ticket is current until
the next switch, whatever else is asked of the poller, and never again after it, as long as the switches of a run do
not lead once around the generations. A poll with a ticket that is stale ends before it reads the drafts. -/

namespace TicketDesk.Poller

/-! ### Points of a run -/

/-- What is asked of a poller. -/
inductive Use where
  | operation (op : Operation)
  | ticket

def Use.isSwitch : Use → Bool
  | .operation (.enable _) => true
  | .operation .disable => true
  | .operation (.toggle _) => true
  | .operation (.due _) => false
  | .ticket => false

def used (p : Poller) : Use → Poller
  | .operation op => p.after op
  | .ticket => p

/-- A poller after the first uses of a run, so many of them. -/
def point (p : Poller) (us : List Use) (k : Nat) : Poller := (us.take k).foldl used p

/-- The uses of a run between two points of it. -/
def between (us : List Use) (i j : Nat) : List Use := (us.take j).drop i

section

variable {p : Poller} {us : List Use} {i j k : Nat}

theorem point_eq (hij : i ≤ j) : p.point us j = (between us i j).foldl used (p.point us i) := by
  have hsplit : us.take j = us.take i ++ between us i j := by
    rw [← List.take_append_drop i (us.take j), List.take_take, Nat.min_eq_left hij]
    rfl
  rw [point, hsplit, List.foldl_append]
  rfl

theorem between_sublist : (between us i j).Sublist us :=
  (List.drop_sublist i _).trans (List.take_sublist j us)

theorem mem_between_of_le (hjk : j ≤ k) {u : Use} (hu : u ∈ between us i j) : u ∈ between us i k := by
  have htake : (us.take j).Sublist (us.take k) := (List.take_prefix_take_left hjk).sublist
  exact (htake.drop i).subset hu

end

/-! ### Generations -/

/-- Fewer switches than there are generations lead back to the same one only when there are none. -/
theorem add_generations_eq_self_iff {g : UInt64} {n : Nat} (hlt : n < UInt64.size) : g + UInt64.ofNat n = g ↔ n = 0 := by
  constructor
  · intro h
    have hnat := congrArg UInt64.toNat h
    have hbound := g.toNat_lt
    simp only [UInt64.toNat_add, UInt64.toNat_ofNat', UInt64.size] at hnat hlt
    omega
  · rintro rfl
    simp

theorem generation_used (p : Poller) (u : Use) :
    (p.used u).generation = p.generation + UInt64.ofNat (if u.isSwitch then 1 else 0) := by
  cases u with
  | ticket => simp [used, Use.isSwitch]
  | operation op =>
    cases op with
    | enable now => rfl
    | disable => rfl
    | toggle now =>
      rw [used, after, toggle]
      split <;> rfl
    | due now =>
      rw [used, after, generation_due]
      simp [Use.isSwitch]

theorem generation_foldl_used (p : Poller) (us : List Use) :
    (us.foldl used p).generation = p.generation + UInt64.ofNat (us.countP Use.isSwitch) := by
  induction us generalizing p with
  | nil => simp
  | cons u us ih =>
    rw [List.foldl_cons, ih, generation_used, List.countP_cons, UInt64.add_assoc, ← UInt64.ofNat_add, Nat.add_comm]

/-! ### Tickets -/

/-- A poll with a stale ticket is done at once. -/
theorem work_of_stale {c : Config} {p : Poller} {t : Ticket} (h : p.isCurrent t = false) :
    (Task.poll t).work c p = .done (.ok .stale) := by
  rw [Task.work, h, if_neg (by decide)]

/-- What the tickets that are given out in a run are worth at its later points. -/
structure Expires (p : Poller) (us : List Use) : Prop where
  current : ∀ i j, i ≤ j →
    ((p.point us j).isCurrent (p.point us i).ticket = true ↔ ∀ u ∈ between us i j, u.isSwitch = false)
  final : ∀ i j k, i ≤ j → j ≤ k → (p.point us j).isCurrent (p.point us i).ticket = false →
    (p.point us k).isCurrent (p.point us i).ticket = false
  dropped : ∀ i j, i ≤ j → (p.point us j).isCurrent (p.point us i).ticket = false →
    ∀ (c : Config) {σ : Type} (w : World σ) (s : Store) (x : σ),
      let poll := (Task.poll (p.point us i).ticket).work c (p.point us j)
      poll.run w s x = (.ok .stale, s, x) ∧ poll.sent w s x = []

theorem isCurrent_iff {p : Poller} {us : List Use} {i j : Nat} (hlt : us.countP Use.isSwitch < UInt64.size) (hij : i ≤ j) :
    (p.point us j).isCurrent (p.point us i).ticket = true ↔ ∀ u ∈ between us i j, u.isSwitch = false := by
  have hcount : (between us i j).countP Use.isSwitch < UInt64.size :=
    Nat.lt_of_le_of_lt between_sublist.countP_le hlt
  rw [isCurrent, beq_iff_eq, ticket, point_eq hij, generation_foldl_used, add_generations_eq_self_iff hcount,
    List.countP_eq_zero]
  simp

/-- However a poller is used, a ticket lasts until the next switch, and a poll that comes later is dropped. -/
theorem expires_run (p : Poller) {us : List Use} (hlt : us.countP Use.isSwitch < UInt64.size) : p.Expires us where
  current _ _ hij := isCurrent_iff hlt hij
  final i j k hij hjk hstale := by
    rw [← Bool.not_eq_true] at hstale ⊢
    rw [isCurrent_iff hlt hij] at hstale
    rw [isCurrent_iff hlt (Nat.le_trans hij hjk)]
    exact fun hquiet => hstale fun u hu => hquiet u (mem_between_of_le hjk hu)
  dropped i j _ hstale c σ w s x := by
    dsimp only
    rw [work_of_stale hstale]
    exact ⟨rfl, rfl⟩

/-- Polling that is switched off and on again leaves the ticket of the first period stale beside that of the second. -/
theorem expires_run_of_restart :
    let p : Poller := { interval := 3000 }
    let us : List Use := [.operation (.enable 0), .ticket, .operation (.due 3000), .ticket, .operation (.toggle 4000),
      .operation (.enable 5000), .ticket, .operation (.due 8000)]
    us.countP Use.isSwitch < UInt64.size ∧ p.Expires us ∧
      (p.point us 4).isCurrent (p.point us 1).ticket = true ∧ (p.point us 6).isCurrent (p.point us 1).ticket = false ∧
      (p.point us 8).isCurrent (p.point us 6).ticket = true := by
  intro p us
  have hlt : us.countP Use.isSwitch < UInt64.size := by decide
  have hexpires : p.Expires us := expires_run p hlt
  refine ⟨hlt, hexpires, ?_, ?_, ?_⟩
  · exact (hexpires.current 1 4 (by decide)).mpr (by decide)
  · exact hexpires.final 1 5 6 (by decide) (by decide) (by decide)
  · exact (hexpires.current 6 8 (by decide)).mpr (by decide)

end TicketDesk.Poller
