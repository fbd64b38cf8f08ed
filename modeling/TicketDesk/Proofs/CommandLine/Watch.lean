import TicketDesk.Http
import TicketDesk.Proofs.CommandLine.Job
import TicketDesk.Proofs.Schedule
import TicketDesk.Proofs.Wire
import TicketDesk.Proofs.Work.Frame

/-! # What a watch does

A watch takes turns for as long as a poll is left, and only a turn that finds a poll due uses one up. So whether it
comes to an end is a matter of the clock alone: a turn without a poll brings the clock a pause closer to the next
poll, and a poll that was made counts, whatever is replied to it. But the schedule is set to a time one interval
away, at the beginning and with each poll, and the watch breaks off if that is beyond the end of the clock. -/

namespace TicketDesk

open Work (answered answered_append)

/-! ### Programs that only look, wait and print -/

namespace Work

variable {σ α β : Type}

theorem SendsAtMost.exchanges_eq_nil {work : Work α} (h : work.SendsAtMost 0) (w : World σ) (s : Store) (x : σ) :
    work.exchanges w s x = [] := by
  induction work generalizing s x with
  | done a => rfl
  | look next ih => exact ih _ (h _) _ _
  | change us next ih => exact ih h _ _
  | send wire next ih =>
    obtain ⟨k, hk, -⟩ := h
    cases hk
  | moment next ih => exact ih _ (h _) _ _
  | say line next ih => exact ih h _ _
  | wait millis next ih => exact ih _ (h _) _ _

/-- Whatever the world answers, a program neither updates anything nor sends a request. -/
structure Idle (work : Work α) : Prop where
  changes : work.Changes fun _ => False
  sends : work.SendsAtMost 0

theorem Idle.bind {work : Work α} {f : α → Work β} (h : work.Idle) (hf : ∀ a, (f a).Idle) : (work.bind f).Idle where
  changes := h.changes.bind fun a => (hf a).changes
  sends := h.sends.bind fun a => (hf a).sends

theorem Idle.logs {work : Work α} (h : work.Idle) (c : Config) : work.Logs c := by
  intro σ w s x
  rw [h.changes.store_run, h.sends.exchanges_eq_nil]
  exact .refl c s

end Work

namespace CommandLine

theorem Job.idle_say (texts : List String) : (Job.say texts).Idle := by
  induction texts with
  | nil => exact ⟨trivial, trivial⟩
  | cons text rest ih => exact ⟨ih.changes, ih.sends⟩

theorem idle_sayResult : sayResult.Idle :=
  ⟨fun _ => (Job.idle_say _).changes, fun _ => (Job.idle_say _).sends⟩

/-! ### A poll -/

/-- What a poll for an order sends. -/
def pollWire (base orderId : String) : Wire :=
  ⟨.get, base ++ ("/query/orders?order_id=" ++ Text.encodeComponent orderId), none⟩

section Poll

variable {σ : Type} {c : Config} {base : String} {w : World σ} {s : Store} {x : σ}

/-- A poll of a watch is a poll after which lines are printed. -/
theorem exists_watchPoll (c : Config) : ∃ rest : Except Fault (Option Json) → Work Unit,
    watchPoll c = (pollOnce c).bind rest ∧ ∀ outcome, (rest outcome).Idle := by
  refine ⟨_, rfl, fun outcome => ?_⟩
  dsimp only
  split
  · refine idle_sayResult.bind fun _ => ?_
    cases outcome <;> exact ⟨trivial, trivial⟩
  · cases outcome <;> exact ⟨trivial, trivial⟩

theorem changes_watchPoll (c : Config) : (watchPoll c).Changes Update.IsRecording := by
  obtain ⟨rest, heq, hrest⟩ := exists_watchPoll c
  rw [heq]
  exact (changes_pollOnce (fun _ h => h) c).bind fun outcome => (hrest outcome).changes.mono fun _ h => h.elim

theorem logs_watchPoll (c : Config) : (watchPoll c).Logs c := by
  obtain ⟨rest, heq, hrest⟩ := exists_watchPoll c
  rw [heq]
  exact (logs_pollOnce c).bind fun outcome => (hrest outcome).logs c

/-- A poll is one request for the current order, and something comes of it. -/
theorem exchanges_watchPoll (hb : c.baseUrl? .query = some base) (hid : s.state.drafts.orderId ≠ "") :
    ∃ reply, (watchPoll c).exchanges w s x = [(pollWire base s.state.drafts.orderId, reply)] := by
  obtain ⟨rest, heq, hrest⟩ := exists_watchPoll c
  rw [heq, Work.exchanges_bind, (hrest _).sends.exchanges_eq_nil, List.append_nil]
  have hsent := DraftRequest.sent_poll hb w s x
  rw [if_pos hid, ← Work.map_fst_exchanges, List.map_eq_singleton_iff] at hsent
  obtain ⟨⟨wire, reply⟩, hex, hwire⟩ := hsent
  exact ⟨reply, by rw [hex]; exact congrArg (fun wire => [(wire, reply)]) hwire⟩

end Poll

/-! ### A turn -/

namespace Watch

/-- The watch after a poll was made at a time. -/
def afterPoll (v : Watch) (now : Int) : Watch :=
  ⟨v.left - 1, { v.poller with nextDue := some (now + v.poller.interval) }⟩

section Turn

variable {σ : Type} {v : Watch} {s : Store} {due : Int}

theorem changes_turn (c : Config) (v : Watch) : (v.turn c).Changes Update.IsRecording := by
  intro now
  dsimp only
  split
  · split
    · exact (changes_watchPoll c).bind fun () _ => trivial
    · trivial
  · exact fun _ => trivial

theorem logs_turn (c : Config) (v : Watch) : (v.turn c).Logs c := by
  refine Work.logs_wait fun now => ?_
  split
  · split
    · exact (logs_watchPoll c).bind fun () => Work.logs_wait fun _ => Work.logs_done c _
    · exact Work.logs_done c _
  · exact Work.logs_wait fun _ => Work.logs_done c _

theorem drafts_turn (c : Config) (v : Watch) (w : World σ) (s : Store) (x : σ) :
    ((v.turn c).run w s x).2.1.state.drafts = s.state.drafts :=
  (changes_turn c v).run_eq State.drafts (fun _ s hu => hu.drafts_apply s) w s x

variable (c : Config) (w : World σ) (x : σ)

theorem turn_of_early (hdue : v.poller.nextDue = some due) (h : (w.wait 0 x).1 < due) :
    ((v.turn c).run w s x).1 = some v ∧ (v.turn c).exchanges w s x = [] := by
  rw [turn, Work.run, Work.exchanges]
  simp only [Poller.due_of_lt hdue h]
  exact ⟨rfl, rfl⟩

theorem turn_of_due (hdue : v.poller.nextDue = some due) (h : due ≤ (w.wait 0 x).1)
    (hfits : (w.wait 0 x).1 + v.poller.interval ≤ lastInstant) :
    ((v.turn c).run w s x).1 = some (v.afterPoll (w.wait 0 x).1) ∧
      (v.turn c).exchanges w s x = (watchPoll c).exchanges w s (w.wait 0 x).2 := by
  have hpoll : v.poller.due (w.wait 0 x).1 = (true, (v.afterPoll (w.wait 0 x).1).poller) := Poller.due_of_le hdue h
  have hclock : (v.afterPoll (w.wait 0 x).1).poller.fits (w.wait 0 x).1 = true :=
    decide_eq_true hfits
  rw [turn, Work.run, Work.exchanges]
  simp only [hpoll, hclock, if_pos, Work.run_bind, Work.exchanges_bind]
  exact ⟨rfl, List.append_nil _⟩

/-- The watch breaks off before the poll. -/
theorem turn_of_overrun (hdue : v.poller.nextDue = some due) (h : due ≤ (w.wait 0 x).1)
    (hlate : lastInstant < (w.wait 0 x).1 + v.poller.interval) :
    ((v.turn c).run w s x).1 = none ∧ (v.turn c).exchanges w s x = [] := by
  have hpoll : v.poller.due (w.wait 0 x).1 = (true, (v.afterPoll (w.wait 0 x).1).poller) := Poller.due_of_le hdue h
  have hclock : (v.afterPoll (w.wait 0 x).1).poller.fits (w.wait 0 x).1 = false :=
    decide_eq_false (Int.not_le.mpr hlate)
  rw [turn, Work.run, Work.exchanges]
  simp only [hpoll, hclock]
  exact ⟨rfl, rfl⟩

end Turn

/-! ### Turn after turn -/

/-- The time that a look at the schedule sets it to, if a poll is due. -/
def plan? (v : Watch) (now : Int) : Option Int :=
  if (v.poller.due now).1 then some (now + v.poller.interval) else none

theorem plan?_of_early {v : Watch} {due now : Int} (hdue : v.poller.nextDue = some due) (h : now < due) :
    v.plan? now = none := by
  rw [plan?, Poller.due_of_lt hdue h]
  exact if_neg Bool.false_ne_true

theorem plan?_of_due {v : Watch} {due now : Int} (hdue : v.poller.nextDue = some due) (h : due ≤ now) :
    v.plan? now = some (now + v.poller.interval) := by
  rw [plan?, Poller.due_of_le hdue h]
  exact if_pos rfl

/-- A look at the schedule: the time that the clock showed, the one that the schedule is set to if a poll is due, and
    what was sent in that turn. -/
structure Look where
  time : Int
  planned : Option Int
  exchanges : List (Wire × Reply)

/-- The requests of a look, each with the time of the look. -/
def Look.polls (l : Look) : List (Int × Wire × Reply) := l.exchanges.map fun ex => (l.time, ex)

/-- The looks are a pause apart at least, and the first one is not before a time. -/
def Paced : Int → List Look → Prop
  | _, [] => True
  | earliest, l :: ls => earliest ≤ l.time ∧ Paced (l.time + pause) ls

/-- The clock can show the time that the schedule is set to in a look, if it is set. -/
def Look.OnClock (l : Look) : Prop := ∀ t ∈ l.planned, t ≤ lastInstant

instance (l : Look) : Decidable l.OnClock := inferInstanceAs (Decidable (∀ t ∈ l.planned, t ≤ lastInstant))

section Looks

variable {σ : Type} (w : World σ) (c : Config)

def look (v : Watch) (s : Store) (x : σ) : Look :=
  ⟨(w.wait 0 x).1, v.plan? (w.wait 0 x).1, (v.turn c).exchanges w s x⟩

/-- The first looks of a watch, so many at most. -/
def looks : Nat → Watch → Store → σ → List Look
  | 0, _, _, _ => []
  | n + 1, v, s, x =>
    if v.left = 0 then []
    else
      let r := (v.turn c).run w s x
      v.look w c s x :: match r.1 with
        | some u => looks n u r.2.1 r.2.2
        | none => []

/-- A watch that takes turns for as long as a poll is left comes to an end: its looks, and what it leaves. -/
inductive Ends : Watch → Store → σ → List Look → Store → σ → Prop
  | done {v : Watch} {s : Store} {x : σ} (h : v.left = 0) : Ends v s x [] s x
  | turn {v u : Watch} {s t : Store} {x y : σ} {ls : List Look} (h : v.left ≠ 0)
    (hnext : ((v.turn c).run w s x).1 = some u)
    (rest : Ends u ((v.turn c).run w s x).2.1 ((v.turn c).run w s x).2.2 ls t y) :
    Ends v s x (v.look w c s x :: ls) t y

end Looks

section Course

variable {σ : Type} {w : World σ} {c : Config} {base : String} {v u : Watch} {s t : Store} {x y : σ} {ls : List Look}
  {due : Int}

theorem looks_of_next (hleft : v.left ≠ 0) (hnext : ((v.turn c).run w s x).1 = some u) (n : Nat) :
    looks w c (n + 1) v s x =
      v.look w c s x :: looks w c n u ((v.turn c).run w s x).2.1 ((v.turn c).run w s x).2.2 := by
  rw [looks, if_neg hleft]
  simp only [hnext]

/-- The schedule is set to no time beyond the end of the clock by a turn after which the watch goes on. -/
theorem onClock_look (hdue : v.poller.nextDue = some due) (hnext : ((v.turn c).run w s x).1 = some u) :
    (v.look w c s x).OnClock := by
  intro t ht
  rcases Int.lt_or_le (w.wait 0 x).1 due with hearly | hlate
  · rw [look, plan?_of_early hdue hearly] at ht
    cases ht
  · rw [look, plan?_of_due hdue hlate] at ht
    cases ht
    by_contra hover
    rw [(turn_of_overrun c w x hdue hlate (Int.not_le.mp hover)).1] at hnext
    cases hnext

/-- A turn whose look is on the clock leads to another one, at which the schedule is set to some time again. -/
theorem next_of_onClock (hdue : v.poller.nextDue = some due) (honclock : (v.look w c s x).OnClock) :
    (((v.turn c).run w s x).1 = some v ∧ (w.wait 0 x).1 < due ∧ (v.turn c).exchanges w s x = []) ∨
      (((v.turn c).run w s x).1 = some (v.afterPoll (w.wait 0 x).1) ∧ due ≤ (w.wait 0 x).1 ∧
        (v.turn c).exchanges w s x = (watchPoll c).exchanges w s (w.wait 0 x).2) := by
  rcases Int.lt_or_le (w.wait 0 x).1 due with hearly | hlate
  · obtain ⟨hnext, hnone⟩ := turn_of_early (s := s) c w x hdue hearly
    exact Or.inl ⟨hnext, hearly, hnone⟩
  · have hfits := honclock _ (plan?_of_due hdue hlate)
    obtain ⟨hnext, hex⟩ := turn_of_due (s := s) c w x hdue hlate hfits
    exact Or.inr ⟨hnext, hlate, hex⟩

/-- So many turns as there are looks until the end, or more, are the whole watch. -/
theorem Ends.turns (h : Ends w c v s x ls t y) {n : Nat} (hn : ls.length ≤ n) :
    (∃ u, (v.turns c n).run w s x = (some u, t, y)) ∧ (v.turns c n).exchanges w s x = ls.flatMap Look.exchanges := by
  induction h generalizing n with
  | done hleft =>
    cases n with
    | zero => exact ⟨⟨_, rfl⟩, rfl⟩
    | succ n =>
      rw [Watch.turns, if_pos hleft]
      exact ⟨⟨_, rfl⟩, rfl⟩
  | turn hleft hnext _ ih =>
    cases n with
    | zero => cases hn
    | succ n =>
      obtain ⟨hrun, hex⟩ := ih (Nat.le_of_succ_le_succ hn)
      rw [Watch.turns, if_neg hleft, Work.run_bind, Work.exchanges_bind]
      simp only [hnext, hex]
      exact ⟨hrun, rfl⟩

/-! ### What a watch does -/

/-- What there is to see of a watch that began with so many polls, the first of them due at a time. -/
structure Polled (c : Config) (base : String) (polls interval : Nat) (due : Int) (s : Store) (ls : List Look)
    (t : Store) : Prop where
  /-- It polled the order of the drafts at the beginning, and so many times. -/
  sent : (ls.flatMap Look.exchanges).map Prod.fst = List.replicate polls (pollWire base s.state.drafts.orderId)
  first : ∀ poll ∈ ls.flatMap Look.polls, due ≤ poll.1
  apart : (ls.flatMap Look.polls).Pairwise
    fun (earlier later : Int × Wire × Reply) => earlier.1 + interval ≤ later.1
  drafts : t.state.drafts = s.state.drafts
  /-- Each poll that was answered has an entry of its own in the history, and there are no others. -/
  logged : Logged c s t (answered (ls.flatMap Look.exchanges))

theorem Polled.early {polls interval : Nat} {due : Int} {u : Store} {l : Look}
    (h : Polled c base polls interval due u ls t) (hl : l.exchanges = []) (hdrafts : u.state.drafts = s.state.drafts)
    (hlogged : Logged c s u (answered l.exchanges)) : Polled c base polls interval due s (l :: ls) t where
  sent := by rw [List.flatMap_cons, hl, List.nil_append, h.sent, hdrafts]
  first := by simpa [Look.polls, hl] using h.first
  apart := by simpa [Look.polls, hl] using h.apart
  drafts := h.drafts.trans hdrafts
  logged := by
    rw [List.flatMap_cons, answered_append]
    exact hlogged.trans h.logged

theorem Polled.poll {polls interval : Nat} {due : Int} {u : Store} {l : Look} {reply : Reply}
    (h : Polled c base polls interval (l.time + interval) u ls t)
    (hl : l.exchanges = [(pollWire base s.state.drafts.orderId, reply)]) (hdue : due ≤ l.time)
    (hdrafts : u.state.drafts = s.state.drafts) (hlogged : Logged c s u (answered l.exchanges)) :
    Polled c base (polls + 1) interval due s (l :: ls) t where
  sent := by rw [List.flatMap_cons, List.map_append, h.sent, hl, hdrafts, Nat.add_comm, List.replicate_add]; rfl
  first := by
    rw [List.flatMap_cons, Look.polls, hl]
    refine List.forall_mem_cons.mpr ⟨hdue, fun poll hpoll => ?_⟩
    have hnext := h.first poll hpoll
    omega
  apart := by
    rw [List.flatMap_cons, Look.polls, hl]
    exact List.pairwise_cons.mpr ⟨h.first, h.apart⟩
  drafts := h.drafts.trans hdrafts
  logged := by
    rw [List.flatMap_cons, answered_append]
    exact hlogged.trans h.logged

/-- What a server responds is an answer, unless it points elsewhere. -/
theorem length_answered {exs : List (Wire × Reply)} (h : ∀ wire reply, (wire, reply) ∈ exs →
    ∃ status body ms, reply = Http.replyOf wire status body ms ∧ Http.isRedirect status = false) :
    (answered exs).length = exs.length := by
  induction exs with
  | nil => rfl
  | cons ex exs ih =>
    obtain ⟨wire, reply⟩ := ex
    obtain ⟨status, body, ms, rfl, hstays⟩ := h wire reply List.mem_cons_self
    have hanswer : Http.replyOf wire status body ms = .answer ⟨status, if Http.hasBody status then body else "", ms⟩ := by
      rw [Http.replyOf, hstays]
      rfl
    rw [hanswer, answered, List.filterMap_cons, ← answered, List.length_cons, List.length_cons,
      ih fun wire reply hmem => h wire reply (List.mem_cons_of_mem _ hmem)]

/-- If a server responds to all polls and never points elsewhere, each of them is answered and has its entry. -/
theorem Polled.length_answered {polls interval : Nat} (h : Polled c base polls interval due s ls t)
    (hresponds : ∀ wire reply, (wire, reply) ∈ ls.flatMap Look.exchanges →
      ∃ status body ms, reply = Http.replyOf wire status body ms ∧ Http.isRedirect status = false) :
    (answered (ls.flatMap Look.exchanges)).length = polls := by
  rw [Watch.length_answered hresponds, ← List.length_map (f := Prod.fst), h.sent, List.length_replicate]

/-- A watch that comes to an end has made its polls, whatever was replied. -/
theorem Ends.polled (h : Ends w c v s x ls t y) (hb : c.baseUrl? .query = some base)
    (hdue : v.poller.nextDue = some due) (hid : s.state.drafts.orderId ≠ "") :
    Polled c base v.left v.poller.interval due s ls t := by
  induction h generalizing due with
  | @done v s x hleft =>
    rw [hleft]
    exact ⟨rfl, by simp, by simp, rfl, .refl c s⟩
  | @turn v u s t x y ls hleft hnext _ ih =>
    have hdrafts := drafts_turn c v w s x
    have hlogged := logs_turn c v σ w s x
    -- A turn leaves the drafts, so the rest of the watch has the same order to poll.
    rw [hdrafts] at ih
    rcases next_of_onClock hdue (onClock_look hdue hnext) with ⟨hsame, -, hnone⟩ | ⟨hpolled, hlate, hex⟩
    · obtain rfl : v = u := Option.some.inj (hsame.symm.trans hnext)
      exact (ih hdue hid).early hnone hdrafts hlogged
    · obtain rfl : v.afterPoll (w.wait 0 x).1 = u := Option.some.inj (hpolled.symm.trans hnext)
      obtain ⟨reply, hpoll⟩ := exchanges_watchPoll (w := w) (x := (w.wait 0 x).2) hb hid
      have hrest := (ih rfl hid).poll (l := v.look w c s x) (hex.trans hpoll) hlate hdrafts hlogged
      rwa [show (v.afterPoll (w.wait 0 x).1).left + 1 = v.left from Nat.succ_pred hleft] at hrest

/-- The looks of a watch that comes to an end are all on the clock, however many are taken of it. -/
theorem Ends.onClock (h : Ends w c v s x ls t y) (hdue : v.poller.nextDue = some due) (n : Nat) :
    ∀ l ∈ looks w c n v s x, l.OnClock := by
  induction h generalizing due n with
  | done hleft =>
    cases n with
    | zero => exact nofun
    | succ n =>
      rw [looks, if_pos hleft]
      exact nofun
  | @turn v u s t x y ls hleft hnext _ ih =>
    cases n with
    | zero => exact nofun
    | succ n =>
      have honclock := onClock_look hdue hnext
      rw [looks_of_next hleft hnext, List.forall_mem_cons]
      rcases next_of_onClock hdue honclock with ⟨hsame, -, -⟩ | ⟨hpolled, -, -⟩
      · obtain rfl : v = u := Option.some.inj (hsame.symm.trans hnext)
        exact ⟨honclock, ih hdue n⟩
      · obtain rfl : v.afterPoll (w.wait 0 x).1 = u := Option.some.inj (hpolled.symm.trans hnext)
        exact ⟨honclock, ih rfl n⟩

/-! ### The end of a watch -/

/-- How many looks there are at most before a poll that is due at a time, when they are a pause apart and the first
    one is not before another time. -/
def looksBefore (due earliest : Int) : Nat := ((due - earliest).toNat + (pause - 1)) / pause

/-- How many turns a watch takes at most when the next poll is due at a time and it looks from another time on: an
    interval's worth of them for each poll after the next one. -/
def turnsWithin (v : Watch) (due earliest : Int) : Nat :=
  match v.left with
  | 0 => 0
  | n + 1 => n * (v.poller.interval / pause + 1) + looksBefore due earliest + 1

theorem looksBefore_lt {due earliest now : Int} (h : earliest ≤ now) (hearly : now < due) :
    looksBefore due (now + pause) < looksBefore due earliest := by
  simp only [looksBefore, pause]
  omega

theorem looksBefore_next (now : Int) (interval : Nat) :
    looksBefore (now + interval) (now + pause) ≤ interval / pause := by
  simp only [looksBefore, pause]
  omega

theorem looksBefore_first (now : Int) (interval : Nat) : looksBefore (now + interval) now ≤ interval / pause + 1 := by
  simp only [looksBefore, pause]
  omega

theorem turnsWithin_early {due earliest now : Int} (hleft : v.left ≠ 0) (h : earliest ≤ now) (hearly : now < due) :
    v.turnsWithin due (now + pause) < v.turnsWithin due earliest := by
  obtain ⟨n, hn⟩ := Nat.exists_eq_succ_of_ne_zero hleft
  have hlt := looksBefore_lt h hearly
  simp only [turnsWithin, hn]
  omega

theorem turnsWithin_afterPoll {due earliest : Int} (hleft : v.left ≠ 0) (now : Int) :
    (v.afterPoll now).turnsWithin (now + v.poller.interval) (now + pause) < v.turnsWithin due earliest := by
  obtain ⟨n, hn⟩ := Nat.exists_eq_succ_of_ne_zero hleft
  have hnext := looksBefore_next now v.poller.interval
  simp only [turnsWithin, afterPoll, hn, Nat.succ_sub_one]
  cases n with
  | zero => exact Nat.succ_pos _
  | succ n =>
    rw [Nat.succ_mul]
    dsimp only
    omega

theorem turnsWithin_start (polls interval : Nat) (now : Int) :
    (start polls interval now).turnsWithin (now + interval) now ≤ (start polls interval now).enough := by
  have hfirst := looksBefore_first now interval
  simp only [turnsWithin, enough, start, Poller.enable]
  cases polls with
  | zero => exact Nat.zero_le _
  | succ n =>
    have hmul : n * (interval / pause + 1) ≤ n * (interval / pause + 2) := Nat.mul_le_mul_left n (Nat.le_succ _)
    rw [Nat.succ_mul]
    dsimp only
    omega

/-- A watch whose looks are a pause apart, and on the clock, comes to an end, and soon enough. -/
theorem exists_ends {n : Nat} {earliest : Int} (hdue : v.poller.nextDue = some due)
    (hpaced : ∀ k, Paced earliest (looks w c k v s x)) (honclock : ∀ l ∈ looks w c n v s x, l.OnClock)
    (hn : v.turnsWithin due earliest ≤ n) : ∃ ls t y, Ends w c v s x ls t y ∧ ls.length ≤ n := by
  induction n generalizing v s x due earliest with
  | zero =>
    have hleft : v.left = 0 := by
      by_contra hleft
      obtain ⟨k, hk⟩ := Nat.exists_eq_succ_of_ne_zero hleft
      simp [turnsWithin, hk] at hn
    exact ⟨[], s, x, .done hleft, Nat.le_refl 0⟩
  | succ n ih =>
    by_cases hleft : v.left = 0
    · exact ⟨[], s, x, .done hleft, Nat.zero_le _⟩
    · have hlook : (v.look w c s x).OnClock := by
        refine honclock _ ?_
        rw [looks, if_neg hleft]
        exact List.mem_cons_self
      have hnow : earliest ≤ (w.wait 0 x).1 := by
        have hfirst := hpaced 1
        simp only [looks, if_neg hleft, Paced] at hfirst
        exact hfirst.1
      -- With or without a poll, what is left of the watch takes fewer turns.
      obtain ⟨u, due', hnext, hdue', hfewer⟩ : ∃ u due', ((v.turn c).run w s x).1 = some u ∧
          u.poller.nextDue = some due' ∧ u.turnsWithin due' ((w.wait 0 x).1 + pause) < v.turnsWithin due earliest := by
        rcases next_of_onClock hdue hlook with ⟨hnext, hearly, -⟩ | ⟨hnext, -, -⟩
        · exact ⟨v, due, hnext, hdue, turnsWithin_early hleft hnow hearly⟩
        · exact ⟨_, _, hnext, rfl, turnsWithin_afterPoll hleft _⟩
      have hrest : ∀ k, Paced ((w.wait 0 x).1 + pause)
          (looks w c k u ((v.turn c).run w s x).2.1 ((v.turn c).run w s x).2.2) := by
        intro k
        have hsplit := hpaced (k + 1)
        rw [looks_of_next hleft hnext] at hsplit
        exact hsplit.2
      rw [looks_of_next hleft hnext, List.forall_mem_cons] at honclock
      obtain ⟨ls, t, y, hends, hlen⟩ :=
        ih hdue' hrest honclock.2 (Nat.le_of_lt_succ (Nat.lt_of_lt_of_le hfewer hn))
      exact ⟨_, t, y, .turn hleft hnext hends, Nat.succ_le_succ hlen⟩

end Course

end Watch

/-! ### The command -/

open Watch (Look Ends Polled Paced looks)

section Command

variable {σ : Type} (c : Config) (base : String) (interval polls : Nat) (w : World σ) (s : Store) (x : σ)

/-- What the clock shows when a watch begins, once its heading is printed. -/
def watchBegins : Int × σ := w.wait 0 (w.say (.out (watchLine s.state.drafts.orderId interval)) x)

/-- The looks of a watch that begins are a pause apart, however many it takes. -/
def LooksPaced : Prop :=
  let begins := watchBegins interval w s x
  ∀ k, Paced begins.1 (looks w c k (.start polls interval begins.1) s begins.2)

/-- The clock can show every time that a watch sets its schedule to, at the beginning and with each poll. -/
def WithinClock : Prop :=
  let begins := watchBegins interval w s x
  begins.1 + interval ≤ lastInstant ∧
    ∀ l ∈ looks w c (polls * (interval / Watch.pause + 2)) (.start polls interval begins.1) s begins.2, l.OnClock

instance : Decidable (WithinClock c interval polls w s x) := inferInstanceAs (Decidable (_ ∧ _))

/-- The watch comes to an end by itself and in time, the command ends well with it, and the polls are made by then. -/
def Watched : Prop :=
  let begins := watchBegins interval w s x
  ∃ ls t y, Ends w c (.start polls interval begins.1) s begins.2 ls t y ∧
    ls.length ≤ polls * (interval / Watch.pause + 2) ∧
    (watch c interval (some polls)).run w s x = (.ok (), t, y) ∧
    (watch c interval (some polls)).exchanges w s x = ls.flatMap Look.exchanges ∧
    Polled c base polls interval (begins.1 + interval) s ls t

/-- With an order to watch, the command is the turns of its watch, if the first poll is due at a time of the clock. -/
theorem turns_of_watch (hid : s.state.drafts.orderId ≠ "")
    (hfits : (watchBegins interval w s x).1 + interval ≤ lastInstant) {u : Watch} {t : Store} {y : σ}
    (hturns : let v := Watch.start polls interval (watchBegins interval w s x).1
      (v.turns c v.enough).run w s (watchBegins interval w s x).2 = (some u, t, y)) :
    (watch c interval (some polls)).run w s x = (.ok (), t, y) ∧
      (watch c interval (some polls)).exchanges w s x =
        let v := Watch.start polls interval (watchBegins interval w s x).1
        (v.turns c v.enough).exchanges w s (watchBegins interval w s x).2 := by
  have hclock : (Watch.start polls interval (watchBegins interval w s x).1).poller.fits
      (watchBegins interval w s x).1 = true := decide_eq_true hfits
  rw [watch, Work.run, Work.exchanges, if_neg hid]
  simp only [watchBegins] at hclock hturns
  simp only [Work.run, Work.exchanges, Option.getD_some, hclock, if_pos, Work.run_bind, Work.exchanges_bind, hturns]
  exact ⟨rfl, List.append_nil _⟩

/-- With an order to watch, a command whose first poll would be due beyond the end of the clock breaks off. -/
theorem watch_of_overrun (count : Option Nat) (hid : s.state.drafts.orderId ≠ "")
    (hlate : lastInstant < (watchBegins interval w s x).1 + interval) :
    (watch c interval count).run w s x = (.error overrun, s, (watchBegins interval w s x).2) ∧
      (watch c interval count).exchanges w s x = [] := by
  have hclock (polls : Nat) : (Watch.start polls interval (watchBegins interval w s x).1).poller.fits
      (watchBegins interval w s x).1 = false := decide_eq_false (Int.not_le.mpr hlate)
  rw [watch, Work.run, Work.exchanges, if_neg hid]
  simp only [watchBegins] at hclock
  simp only [Work.run, Work.exchanges, hclock]
  exact ⟨rfl, rfl⟩

variable {c base interval polls w s x}

/-- If its looks are a pause apart, a watch with a query service and an order comes to an end with as many polls as
    were asked for, whatever is replied to them, exactly if the clock can show all times of its schedule. -/
theorem watched_run (hb : c.baseUrl? .query = some base) (hid : s.state.drafts.orderId ≠ "")
    (hpaced : LooksPaced c interval polls w s x) :
    Watched c base interval polls w s x ↔ WithinClock c interval polls w s x := by
  constructor
  · rintro ⟨ls, t, y, hends, -, hrun, -⟩
    refine ⟨?_, hends.onClock rfl _⟩
    by_contra hlate
    rw [(watch_of_overrun c interval w s x (some polls) hid (Int.not_le.mp hlate)).1] at hrun
    cases congrArg Prod.fst hrun
  · rintro ⟨hfits, honclock⟩
    have hsoon := Watch.turnsWithin_start polls interval (watchBegins interval w s x).1
    obtain ⟨ls, t, y, hends, hlen⟩ := Watch.exists_ends rfl hpaced honclock hsoon
    obtain ⟨⟨u, hturns⟩, hturnsex⟩ := hends.turns hlen
    obtain ⟨hrun, hex⟩ := turns_of_watch c interval polls w s x hid hfits hturns
    exact ⟨ls, t, y, hends, hlen, hrun, hex.trans hturnsex, hends.polled hb rfl hid⟩

end Command

end CommandLine

/-! ### Clocks that pace the looks -/

/-- A world has a clock that a wait shows and moves on by the time waited, and that nothing sets back. -/
structure World.Steady {σ : Type} (w : World σ) (clock : σ → Int) : Prop where
  send : ∀ wire x, clock x ≤ clock (w.send wire x).2
  moment : ∀ x, clock x ≤ clock (w.moment x).2
  say : ∀ line x, clock x ≤ clock (w.say line x)
  wait : ∀ (millis : Nat) x, clock x + millis ≤ clock (w.wait millis x).2
  shows : ∀ millis x, (w.wait millis x).1 = clock (w.wait millis x).2

section Steady

open CommandLine (Watch watchPoll LooksPaced)
open CommandLine.Watch (Paced looks pause)

variable {σ α : Type} {w : World σ} {clock : σ → Int} {c : Config} {s : Store} {x : σ}

theorem World.Steady.le_run (hw : w.Steady clock) (work : Work α) (s : Store) (x : σ) :
    clock x ≤ clock (work.run w s x).2.2 := by
  induction work generalizing s x with
  | done a => exact Int.le_refl _
  | look next ih => exact ih _ s x
  | change us next ih => exact ih (s.updateAll us) x
  | send wire next ih => exact Int.le_trans (hw.send wire x) (ih _ s _)
  | moment next ih => exact Int.le_trans (hw.moment x) (ih _ s _)
  | say line next ih => exact Int.le_trans (hw.say line x) (ih s _)
  | wait millis next ih =>
    have hwait := hw.wait millis x
    exact Int.le_trans (by omega) (ih _ s _)

theorem World.Steady.pause_le_turn (hw : w.Steady clock) {v u : Watch} (hnext : ((v.turn c).run w s x).1 = some u) :
    (w.wait 0 x).1 + pause ≤ clock ((v.turn c).run w s x).2.2 := by
  revert hnext
  rw [hw.shows, Watch.turn, Work.run]
  split
  · split
    · intro _
      rw [Work.run_bind]
      have hpoll := hw.le_run (watchPoll c) s (w.wait 0 x).2
      have hwait := hw.wait pause ((watchPoll c).run w s (w.wait 0 x).2).2.2
      exact Int.le_trans (by omega) hwait
    · intro hnone
      cases hnone
  · exact fun _ => hw.wait pause _

theorem World.Steady.paced_looks (hw : w.Steady clock) (n : Nat) (v : Watch) {earliest : Int} (h : earliest ≤ clock x) :
    Paced earliest (looks w c n v s x) := by
  induction n generalizing v s x earliest with
  | zero => trivial
  | succ n ih =>
    rw [looks]
    split
    · trivial
    · refine ⟨?_, ?_⟩
      · have hwait := hw.wait 0 x
        show earliest ≤ (w.wait 0 x).1
        rw [hw.shows]
        omega
      · split
        case h_1 u hnext => exact ih u (hw.pause_le_turn hnext)
        case h_2 => trivial

/-- A steady clock paces the looks of every watch. -/
theorem World.Steady.looksPaced (hw : w.Steady clock) (interval polls : Nat) : LooksPaced c interval polls w s x :=
  fun k => hw.paced_looks k _ (hw.shows 0 _).le

end Steady

namespace CommandLine

/-- A world with a clock that replies in turn, and takes its time for a reply. -/
def unhurried : World (List Reply × Int) where
  send _ x := (x.1.headD (.unreachable ""), x.1.tail, x.2 + 40)
  moment x := (⟨1700000000000, 7, "12:00:00"⟩, x)
  say _ x := x
  wait millis x := (x.2 + millis, x.1, x.2 + millis)

theorem steady_unhurried : unhurried.Steady Prod.snd where
  send _ x := by simp [unhurried]
  moment _ := Int.le_refl _
  say _ _ := Int.le_refl _
  wait _ _ := Int.le_refl _
  shows _ _ := rfl

/-- Three polls are made though one is not answered and one is refused, and the two answers are on record. -/
theorem watched_run_unhurried :
    let s := (Store.load .unwritable).update (.drafts (.keepOrderId "A-1"))
    let x : List Reply × Int := ([.answer ⟨200, "", 5⟩, .unreachable "gone", .answer ⟨404, "lost", 3⟩], 0)
    Config.initial.baseUrl? .query = some "http://127.0.0.1:8083" ∧ s.state.drafts.orderId ≠ "" ∧
      LooksPaced .initial 1000 3 unhurried s x ∧ WithinClock .initial 1000 3 unhurried s x ∧
      Watched .initial "http://127.0.0.1:8083" 1000 3 unhurried s x ∧
      (((watch .initial 1000 (some 3)).run unhurried s x).2.1.state.history.entries.map Entry.status = [404, 200]) := by
  intro s x
  have hbase : Config.initial.baseUrl? .query = some "http://127.0.0.1:8083" := by decide
  have hid : s.state.drafts.orderId ≠ "" := by decide
  have hpaced := steady_unhurried.looksPaced (c := .initial) (s := s) (x := x) 1000 3
  have hclock : WithinClock .initial 1000 3 unhurried s x := by decide +kernel
  exact ⟨hbase, hid, hpaced, hclock, (watched_run hbase hid hpaced).mpr hclock, by decide +kernel⟩

/-! ### Watches that fall short -/

/-- A world with a clock and a server that points elsewhere, without saying where. -/
def redirecting : World Int where
  send wire x := (Http.replyOf wire 302 "" 5, x)
  moment x := (⟨1700000000000, 7, "12:00:00"⟩, x)
  say _ x := x
  wait millis x := (x + millis, x + millis)

/-- The longest interval that a configuration can have is accepted, and a watch with it breaks off before its first
    poll. And a poll that the server responds to with a redirection goes out, but has no entry in the history: what
    sends the requests reports it as a failure. -/
theorem watch_falls_short :
    let c := { Config.initial with pollIntervalSecs := 18446744073709551615 }
    let interval := c.pollInterval.toNat * 1000
    let s := (Store.load .unwritable).update (.drafts (.keepOrderId "o-1"))
    (c.defect? = none ∧ c.baseUrl? .query = some "http://127.0.0.1:8083" ∧ s.state.drafts.orderId ≠ "" ∧
      LooksPaced c interval 1 unhurried s ([], 0) ∧
      ((watch c interval (some 1)).run unhurried s ([], 0)).1 = .error overrun ∧
      (watch c interval (some 1)).exchanges unhurried s ([], 0) = [] ∧
      ¬Watched c "http://127.0.0.1:8083" interval 1 unhurried s ([], 0)) ∧
    ((watch .initial 1000 (some 1)).exchanges redirecting s 0).map Prod.fst =
        [pollWire "http://127.0.0.1:8083" "o-1"] ∧
      ((watch .initial 1000 (some 1)).run redirecting s 0).2.1.state.history.entries.length = 0 := by
  intro c interval s
  have hid : s.state.drafts.orderId ≠ "" := by decide
  have hlate : lastInstant < (watchBegins interval unhurried s ([], 0)).1 + interval := by decide +kernel
  obtain ⟨hrun, hex⟩ := watch_of_overrun c interval unhurried s ([], 0) (some 1) hid hlate
  refine ⟨⟨by decide, by decide, hid, steady_unhurried.looksPaced interval 1, by rw [hrun], hex, ?_⟩,
    by decide +kernel, by decide +kernel⟩
  rintro ⟨ls, t, y, -, -, hended, -⟩
  cases congrArg Prod.fst (hrun.symm.trans hended)

end CommandLine

end TicketDesk
