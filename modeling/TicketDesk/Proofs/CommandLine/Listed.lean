import TicketDesk.Proofs.CommandLine.Job
import TicketDesk.Proofs.Reference

/-! # Entries by what a listing shows

A listing prints one row for each entry, with its position and its id. Either of the two may be given to have the entry
shown or its request made again: the position is that of the row, and the id is the row's. -/

namespace TicketDesk

/-- What the world is after these lines are printed. -/
def World.printing {σ : Type} (w : World σ) (texts : List String) (x : σ) : σ :=
  texts.foldl (fun x text => w.say (.out text) x) x

namespace CommandLine

variable {σ : Type} {c : Config} {s : Store} {session : Session}

theorem Job.run_say (texts : List String) (w : World σ) (s : Store) (x : σ) :
    (Job.say texts).run w s x = (.ok (), s, w.printing texts x) := by
  induction texts generalizing x with
  | nil => rfl
  | cons text rest ih => exact ih _

/-! ### By reference -/

/-- To show and to replay by this text is to show and to replay this entry, whatever the world says. -/
structure Selects (c : Config) (s : Store) (reference : String) (e : Entry) : Prop where
  shows : ∀ {σ : Type} (w : World σ) (x : σ),
    ((Command.showEntry reference).job c).run w s x = (.ok (), s, w.printing [e.toJson.pretty] x)
  replays : ∀ {σ : Type} (w : World σ) (x : σ),
    ((Command.replayEntry reference).job c).run w s x = (report (e.replay.execute c) fun _ => Job.ok).run w s x
  sends : ∀ {σ : Type} (w : World σ) (x : σ),
    ((Command.replayEntry reference).job c).sent w s x = (e.replay.execute c).sent w s x

theorem selects_of_find? (hsession : s.state.session = some session) {reference : String} {e : Entry}
    (hfind : s.state.history.find? reference = some e) : Selects c s reference e where
  shows w x := by
    refine (run_withSession hsession w x).trans ?_
    simp only [Command.jobInSession, withEntry, Work.run, hfind]
    exact Job.run_say _ w s x
  replays w x := by
    refine (run_withSession hsession w x).trans ?_
    simp only [Command.jobInSession, withEntry, Work.run, hfind]
  sends w x := by
    refine (sent_withSession hsession w x).trans ?_
    simp only [Command.jobInSession, withEntry, Work.sent, hfind]
    exact sent_report _ (fun _ => Job.ends_ok) w s x

/-! ### Rows -/

/-- A listing prints these rows, under a note when there are no entries at all. -/
def Lists (c : Config) (s : Store) (limit : Option Nat) (rows : List String) : Prop :=
  ∀ {σ : Type} (w : World σ) (x : σ), ((Command.listHistory limit).job c).run w s x =
    (.ok (), s, w.printing ((if s.state.history.entries = [] then ["History is empty"] else []) ++ rows) x)

/-- There is a row for each entry up to the limit, and each row is that of the entry at its place. -/
theorem exists_rows (hsession : s.state.session = some session) (limit : Option Nat) :
    ∃ rows, Lists c s limit rows ∧
      rows.length = min (limit.getD s.state.history.entries.length) s.state.history.entries.length ∧
      ∀ i row, rows[i]? = some row → ∃ e, s.state.history.entries[i]? = some e ∧ row = entryLine (i + 1) e := by
  obtain ⟨listed, hprefix, hlength, hlisted⟩ : ∃ listed : List Entry, listed <+: s.state.history.entries ∧
      listed.length = min (limit.getD s.state.history.entries.length) s.state.history.entries.length ∧
      listed = limit.elim s.state.history.entries s.state.history.entries.take := by
    cases limit with
    | some n => exact ⟨_, List.take_prefix n _, List.length_take, rfl⟩
    | none => exact ⟨_, List.prefix_refl _, (Nat.min_self _).symm, rfl⟩
  refine ⟨(listed.zipIdx 1).map fun (e, position) => entryLine position e, fun w x => ?_, ?_, fun i row hrow => ?_⟩
  · have hnote : (if s.state.history.entries.isEmpty then ["History is empty"] else []) =
        if s.state.history.entries = [] then ["History is empty"] else [] := by simp only [List.isEmpty_iff]
    rw [← hnote, hlisted]
    cases limit <;> exact (run_withSession hsession w x).trans (Job.run_say _ w s x)
  · rw [List.length_map, List.length_zipIdx, hlength]
  · rw [List.getElem?_map, List.getElem?_zipIdx, Option.map_map] at hrow
    obtain ⟨e, he, rfl⟩ := Option.map_eq_some_iff.mp hrow
    obtain ⟨rest, hrest⟩ := hprefix
    rw [← hrest, List.getElem?_append_left (List.getElem?_eq_some_iff.mp he).1, Nat.add_comm]
    exact ⟨e, he, rfl⟩

/-! ### References -/

/-- A text refers to the newest entry with that id, else to the entry at that position, else to nothing. So among
    recorded entries, whoever is logged in, each row of a listing begins with a position by which the entry of the row
    is selected, and its id selects an entry with that id. A log in memory is shorter than the largest word. -/
theorem references_resolve :
    (∀ (h : History) (reference : String) (o : Option Entry), h.entries.length < UInt64.size →
      (h.find? reference = o ↔ h.Refers reference o)) ∧
    ∀ (c : Config) (s : Store) (session : Session), s.state.session = some session →
      s.state.history.entries.length < UInt64.size →
      (∀ e ∈ s.state.history.entries, ∃ m, e.id = Entry.freshId m) → ∀ limit, ∃ rows, Lists c s limit rows ∧
        rows.length = min (limit.getD s.state.history.entries.length) s.state.history.entries.length ∧
        ∀ i row, rows[i]? = some row → ∃ e, s.state.history.entries[i]? = some e ∧ row = entryLine (i + 1) e ∧
          Selects c s (String.ofList (Text.showNat (i + 1))) e ∧
          ∃ e' ∈ s.state.history.entries, e'.id = e.id ∧ Selects c s e.id e' := by
  refine ⟨fun h reference o hlen => History.find?_eq_iff hlen, fun c s session hsession hlen hids limit => ?_⟩
  obtain ⟨rows, hlists, hlength, hrows⟩ := exists_rows (c := c) hsession limit
  refine ⟨rows, hlists, hlength, fun i row hrow => ?_⟩
  obtain ⟨e, he, htext⟩ := hrows i row hrow
  obtain ⟨e', hmem, hid, hfind⟩ := History.exists_find?_id (List.mem_of_getElem? he)
  exact ⟨e, he, htext, selects_of_find? hsession (History.find?_position hlen hids he),
    e', hmem, hid, selects_of_find? hsession hfind⟩

/-- Two entries: `+02` refers to the older one, its row begins with a 2, and by `2` it is shown and replayed. -/
theorem references_resolve_two_entries :
    let newer : Entry := ⟨"2-7", "09:00:01", "Create", .order, .post, "/orders", some (.object []), false, 422, 8⟩
    let older : Entry := ⟨"1-1", "09:00:00", "Health", .query, .get, "/healthz", none, true, 200, 3⟩
    let s : Store := ⟨⟨some ⟨"ops", "tok"⟩, {}, ⟨[newer, older]⟩, .initial, .initial⟩, .unwritable, []⟩
    s.state.history.find? "+02" = some older ∧
    ∃ rows, Lists .initial s none rows ∧ rows[1]? = some (entryLine 2 older) ∧ Selects .initial s "2" older := by
  intro newer older s
  have hlen : s.state.history.entries.length < UInt64.size := by decide
  have hids : ∀ e ∈ s.state.history.entries, ∃ m, e.id = Entry.freshId m := by
    intro e he
    rcases List.mem_pair.mp he with rfl | rfl
    · exact ⟨⟨2, 7, ""⟩, by decide⟩
    · exact ⟨⟨1, 1, ""⟩, by decide⟩
  have hno : ∀ x ∈ s.state.history.entries, x.id ≠ "+02" := by
    intro e he
    rcases List.mem_pair.mp he with rfl | rfl <;> simp [newer, older]
  have hsplit : s.state.history.entries = [newer] ++ older :: [] := rfl
  refine ⟨(references_resolve.1 _ _ _ hlen).mpr (.position hno hsplit
    ⟨"02".toList, ⟨by decide, List.all_eq_true.mp rfl⟩, Or.inr rfl, by decide⟩), ?_⟩
  obtain ⟨rows, hlists, hlength, hrows⟩ := references_resolve.2 .initial s _ rfl hlen hids none
  have hrow := List.getElem?_eq_getElem (l := rows) (i := 1) (by rw [hlength]; decide)
  obtain ⟨e, he, htext, hselects, -⟩ := hrows 1 _ hrow
  obtain rfl : older = e := Option.some.inj he
  exact ⟨rows, hlists, hrow.trans (congrArg some htext), hselects⟩

end CommandLine

end TicketDesk
