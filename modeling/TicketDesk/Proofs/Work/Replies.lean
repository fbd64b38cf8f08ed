import TicketDesk.Proofs.Execution
import TicketDesk.Proofs.Work.Amid

/-! # What comes of a request

A reply is the data of an answer with status 2xx, or a fault. A request without a hook goes out once and ends in
what its reply is, and no draft is touched on the way. -/

namespace TicketDesk

/-- What comes of a request that is replied to like this: the data of an answer with status 2xx, or a fault. -/
def Reply.outcome : Reply → Except Fault Json
  | .unreachable detail => .error (.network detail)
  | .answer a =>
    if 200 ≤ a.status ∧ a.status < 300 then .ok a.data else .error (.http a.status (renderBody a.data))

/-- The request was answered with a status of 2xx. -/
def Reply.Succeeds (reply : Reply) : Prop := ∃ a, reply = .answer a ∧ 200 ≤ a.status ∧ a.status < 300

theorem Reply.outcome_of_succeeds {reply : Reply} (h : reply.Succeeds) : ∃ data, reply.outcome = .ok data := by
  obtain ⟨a, rfl, hstatus⟩ := h
  exact ⟨a.data, if_pos hstatus⟩

theorem Reply.outcome_eq_ok_iff {reply : Reply} {data : Json} :
    reply.outcome = .ok data ↔ ∃ a, reply = .answer a ∧ (200 ≤ a.status ∧ a.status < 300) ∧ a.data = data := by
  cases reply with
  | unreachable detail => simp [outcome]
  | answer a =>
    by_cases hstatus : 200 ≤ a.status ∧ a.status < 300
    · simp [outcome, hstatus]
    · rw [outcome, if_neg hstatus]
      refine iff_of_false (by simp) ?_
      rintro ⟨_, ⟨⟩, hin, -⟩
      exact hstatus hin

theorem Reply.succeeds_of_outcome {reply : Reply} {data : Json} (h : reply.outcome = .ok data) : reply.Succeeds := by
  obtain ⟨a, rfl, hstatus, -⟩ := outcome_eq_ok_iff.mp h
  exact ⟨a, rfl, hstatus⟩

theorem Reply.not_succeeds_of_outcome {reply : Reply} {e : Fault} (h : reply.outcome = .error e) : ¬reply.Succeeds := by
  intro hsucceeds
  obtain ⟨data, hdata⟩ := outcome_of_succeeds hsucceeds
  cases hdata.symm.trans h

section

variable {σ : Type} {c : Config} (w : World σ) (others : Others σ) (s : Store) (x : σ)

/-- An answer to a request without a hook is recorded, and no draft is touched. -/
theorem Request.course_settle {r : Request} (hhook : r.hook = none) (a : Answer) :
    ((r.settle a).amid w others s x).acts = [] ∧ ((r.settle a).amid w others s x).result = (Reply.answer a).outcome := by
  have hconclude : r.conclude a = .done (Reply.answer a).outcome := by
    rw [conclude, hhook, Reply.outcome]
    by_cases hok : isSuccess a.status = true
    · rw [if_pos hok, if_pos (isSuccess_iff.mp hok)]
    · rw [if_neg hok, if_neg (mt isSuccess_iff.mpr hok)]
  rw [settle, hconclude]
  exact ⟨rfl, rfl⟩

/-- A request without a hook goes out once, and no draft is touched whatever comes of it. -/
theorem Request.course_execute {r : Request} {base : String} (hhook : r.hook = none)
    (hb : c.baseUrl? r.call.service = some base) :
    ∃ reply, ((r.execute c).amid w others s x).acts = [.sent (r.wire base) reply] ∧
      ((r.execute c).amid w others s x).result = reply.outcome := by
  refine ⟨(w.send (r.wire base) x).1, ?_⟩
  rw [execute_of_base hb, Work.amid]
  cases (w.send (r.wire base) x).1 with
  | unreachable detail => exact ⟨rfl, rfl⟩
  | answer a =>
    obtain ⟨hacts, hresult⟩ := Request.course_settle w others
      (s.updateAll (others (w.send (r.wire base) x).2).1) (others (w.send (r.wire base) x).2).2 hhook a
    exact ⟨congrArg (Act.sent (r.wire base) (.answer a) :: ·) hacts, hresult⟩

end

end TicketDesk
