import TicketDesk.History
import TicketDesk.Proofs.Text.Integer

/-! # References to entries

A text refers to an entry of a log by its id or by its position. The newest entry with that id counts, and only a text
that is no id is read as a position, counted from one at the newest. The id that an entry is recorded under has a hyphen
in it and a position has none, so among recorded entries no id stands in the way of a position. -/

namespace TicketDesk

/-! ### Positions -/

namespace Text

variable {text : String} {n : Nat}

/-- Digits that denote a number, with or without a plus sign before them. -/
def Counts (text : String) (n : Nat) : Prop :=
  ∃ ds, IsDigits ds ∧ (text.toList = ds ∨ text.toList = '+' :: ds) ∧ digitSum ds = n

theorem natBelow?_eq_some_iff {bound : Nat} : natBelow? bound text.toList = some n ↔ Counts text n ∧ n < bound := by
  have hread (ds : List Char) : ((digits? ds).bind fun n => if n < bound then some n else none) = some n ↔
      (IsDigits ds ∧ digitSum ds = n) ∧ n < bound := by
    simp only [Option.bind_eq_some_iff, digits?_eq_some_iff, Option.ite_none_right_eq_some]
    constructor
    · rintro ⟨m, hds, hm, heq⟩
      obtain rfl := Option.some.inj heq
      exact ⟨hds, hm⟩
    · rintro ⟨hds, hn⟩
      exact ⟨n, hds, hn, rfl⟩
  unfold natBelow?
  rw [hread]
  refine and_congr_left' ?_
  split
  case h_1 rest htext =>
    constructor
    · rintro ⟨hds, hsum⟩
      exact ⟨rest, hds, Or.inr htext, hsum⟩
    · rintro ⟨ds, hds, hplus | hplus, hsum⟩
      · exact absurd rfl (htext ▸ hplus ▸ hds : IsDigits ('+' :: rest)).head_ne.1
      · obtain rfl := (List.cons.inj (htext.symm.trans hplus)).2
        exact ⟨hds, hsum⟩
  case h_2 hnone =>
    constructor
    · rintro ⟨hds, hsum⟩
      exact ⟨text.toList, hds, Or.inl rfl, hsum⟩
    · rintro ⟨ds, hds, hplus | hplus, hsum⟩
      · exact hplus ▸ ⟨hds, hsum⟩
      · exact absurd hplus (hnone ds)

theorem counts_showNat (n : Nat) : Counts (String.ofList (showNat n)) n :=
  have hread := digits?_eq_some_iff.mp (digits?_showNat n)
  ⟨showNat n, hread.1, Or.inl String.toList_ofList, hread.2⟩

theorem Counts.not_hyphen (h : Counts text n) : '-' ∉ text.toList := by
  obtain ⟨ds, hds, htext, -⟩ := h
  have hdigits : '-' ∉ ds := fun hmem => absurd (hds.2 '-' hmem) (by decide)
  rcases htext with htext | htext
  · rw [htext]
    exact hdigits
  · rw [htext, List.mem_cons, not_or]
    exact ⟨by decide, hdigits⟩

end Text

/-! ### Entries -/

/-- The id of a recorded entry: the milliseconds, a hyphen and a random word. -/
theorem Entry.hyphen_mem_freshId (m : Moment) : '-' ∈ (freshId m).toList := by
  simp [freshId]

namespace History

/-- What a text refers to in a log. -/
inductive Refers (h : History) (reference : String) : Option Entry → Prop where
  /-- The newest entry with this id. -/
  | id {newer older : List Entry} {e : Entry} (hsplit : h.entries = newer ++ e :: older) (hid : e.id = reference)
      (hnewer : ∀ x ∈ newer, x.id ≠ reference) : Refers h reference (some e)
  /-- The entry at this position, when the text is no id. -/
  | position {newer older : List Entry} {e : Entry} (hno : ∀ x ∈ h.entries, x.id ≠ reference)
      (hsplit : h.entries = newer ++ e :: older) (hcounts : Text.Counts reference (newer.length + 1)) :
      Refers h reference (some e)
  /-- Nothing, when the text is no id and no position in the log. -/
  | nothing (hno : ∀ x ∈ h.entries, x.id ≠ reference)
      (hcounts : ∀ n, Text.Counts reference n → ¬(1 ≤ n ∧ n ≤ h.entries.length)) : Refers h reference none

variable {h : History} {reference : String}

theorem find?_id_eq_none_iff :
    (h.entries.find? fun e => e.id == reference) = none ↔ ∀ x ∈ h.entries, x.id ≠ reference := by
  simp

theorem find?_of_no_id (hno : ∀ x ∈ h.entries, x.id ≠ reference) :
    h.find? reference = match Text.natBelow? UInt64.size reference.toList with
      | some (position + 1) => h.entries[position]?
      | _ => none := by
  rw [find?]
  split
  case h_1 e he =>
    rw [find?_id_eq_none_iff.mpr hno] at he
    cases he
  case h_2 => rfl

theorem exists_split {i : Nat} {e : Entry} (he : h.entries[i]? = some e) :
    ∃ newer older, h.entries = newer ++ e :: older ∧ newer.length = i := by
  obtain ⟨hi, hget⟩ := List.getElem?_eq_some_iff.mp he
  refine ⟨h.entries.take i, h.entries.drop (i + 1), ?_, List.length_take_of_le (Nat.le_of_lt hi)⟩
  rw [← hget, ← List.drop_eq_getElem_cons hi, List.take_append_drop]

/-- A text refers to something, or it is no id and no position. -/
theorem exists_refers (h : History) (reference : String) : ∃ o, h.Refers reference o := by
  cases hfind : h.entries.find? fun e => e.id == reference with
  | some e =>
    obtain ⟨hid, newer, older, hsplit, hnewer⟩ := List.find?_eq_some_iff_append.mp hfind
    exact ⟨some e, .id hsplit (beq_iff_eq.mp hid) fun x hx => by simpa using hnewer x hx⟩
  | none =>
    have hno := find?_id_eq_none_iff.mp hfind
    by_cases hcounts : ∃ n, Text.Counts reference n ∧ 1 ≤ n ∧ n ≤ h.entries.length
    · obtain ⟨n, hn, hpos, hlen⟩ := hcounts
      obtain ⟨i, rfl⟩ : ∃ i, n = i + 1 := ⟨n - 1, (Nat.sub_add_cancel hpos).symm⟩
      obtain ⟨newer, older, hsplit, rfl⟩ := exists_split (List.getElem?_eq_getElem hlen)
      exact ⟨_, .position hno hsplit hn⟩
    · exact ⟨none, .nothing hno fun n hn hin => hcounts ⟨n, hn, hin⟩⟩

/-- A log in memory is shorter than the largest word, so a position in it is read whatever its digits. -/
theorem find?_of_refers (hlen : h.entries.length < UInt64.size) {o : Option Entry} (ho : h.Refers reference o) :
    h.find? reference = o := by
  cases ho with
  | @id newer older e hsplit hid hnewer =>
    have hfind : (h.entries.find? fun e => e.id == reference) = some e :=
      List.find?_eq_some_iff_append.mpr ⟨beq_iff_eq.mpr hid, newer, older, hsplit, fun x hx => by simpa using hnewer x hx⟩
    rw [find?, hfind]
  | @position newer older e hno hsplit hcounts =>
    have hlength : h.entries.length = newer.length + (older.length + 1) := by
      rw [hsplit, List.length_append, List.length_cons]
    have hread : Text.natBelow? UInt64.size reference.toList = some (newer.length + 1) :=
      Text.natBelow?_eq_some_iff.mpr ⟨hcounts, by omega⟩
    rw [find?_of_no_id hno, hread, hsplit]
    simp
  | nothing hno hcounts =>
    rw [find?_of_no_id hno]
    split
    next position hread =>
      have hout := hcounts _ (Text.natBelow?_eq_some_iff.mp hread).1
      exact List.getElem?_eq_none (by omega)
    next => rfl

/-- An entry is found for just the texts that refer to it, and nothing for those that refer to nothing. -/
theorem find?_eq_iff (hlen : h.entries.length < UInt64.size) {o : Option Entry} :
    h.find? reference = o ↔ h.Refers reference o := by
  refine ⟨fun hfind => ?_, find?_of_refers hlen⟩
  obtain ⟨o', ho'⟩ := h.exists_refers reference
  rw [← hfind, find?_of_refers hlen ho']
  exact ho'

/-- Among recorded entries a position refers to the entry that stands there. -/
theorem find?_position (hlen : h.entries.length < UInt64.size)
    (hids : ∀ e ∈ h.entries, ∃ m, e.id = Entry.freshId m) {i : Nat} {e : Entry} (he : h.entries[i]? = some e) :
    h.find? (String.ofList (Text.showNat (i + 1))) = some e := by
  obtain ⟨newer, older, hsplit, rfl⟩ := exists_split he
  have hcounts := Text.counts_showNat (newer.length + 1)
  refine find?_of_refers hlen (.position (fun x hx hid => ?_) hsplit hcounts)
  obtain ⟨m, hm⟩ := hids x hx
  exact hcounts.not_hyphen (hid ▸ hm ▸ Entry.hyphen_mem_freshId m)

/-- The id of an entry refers to an entry with that id. -/
theorem exists_find?_id {e : Entry} (he : e ∈ h.entries) : ∃ e' ∈ h.entries, e'.id = e.id ∧ h.find? e.id = some e' := by
  cases hfind : h.entries.find? fun x => x.id == e.id with
  | none => exact absurd rfl (find?_id_eq_none_iff.mp hfind e he)
  | some e' =>
    refine ⟨e', List.mem_of_find?_eq_some hfind, beq_iff_eq.mp (List.find?_some hfind :), ?_⟩
    rw [find?, hfind]

end History

end TicketDesk
