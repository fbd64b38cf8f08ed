import TicketDesk.Json.Record
import TicketDesk.Proofs.Json.RoundTrip

/-! # Records read back

The fields of a written record are found again under their names, whatever their order, and each word
is read back as it was. -/

namespace TicketDesk.Json

/-! ### Words -/

namespace Decoder

open Written

theorem whole_ofJson (depth : Nat) (w : Whole) : whole depth (ofJson (.whole w)) = some w.val := by
  simp [whole, ofJson, w.value?_numeral]

theorem int64_ofJson (depth : Nat) (n : Int64) : int64 depth (ofJson (.ofInt64 n)) = some n := by
  have hlt : (Whole.ofInt64 n).val < 0x8000000000000000 := n.toInt_lt
  rw [int64, ofInt64, whole_ofJson, Option.bind_some, if_pos hlt]
  exact congrArg some n.ofInt_toInt

theorem uint64_ofJson (depth : Nat) (n : UInt64) : uint64 depth (ofJson (.ofUInt64 n)) = some n := by
  have hpos : 0 ≤ (Whole.ofUInt64 n).val := Int.natCast_nonneg _
  rw [uint64, ofUInt64, whole_ofJson, Option.bind_some, if_pos hpos]
  exact congrArg some n.ofNat_toNat

theorem uint16_ofJson (depth : Nat) (n : UInt16) : uint16 depth (ofJson (.ofUInt16 n)) = some n := by
  have hin : 0 ≤ (Whole.ofUInt16 n).val ∧ (Whole.ofUInt16 n).val < 0x10000 :=
    ⟨Int.natCast_nonneg _, Int.ofNat_lt.mpr n.toNat_lt⟩
  rw [uint16, ofUInt16, whole_ofJson, Option.bind_some, if_pos hin]
  exact congrArg some n.ofNat_toNat

theorem name_ofJson {α : Type} {ofName? : String → Option α} {s : String} {a : α} (h : ofName? s = some a)
    (depth : Nat) : name ofName? depth (ofJson (.text s)) = some a := by
  cases depth <;> simp [name, ofJson, h]

end Decoder

/-! ### Fields -/

def writtenFields (ms : List (String × Json)) : Fields := ms.map fun m => (m.1, Written.ofJson m.2)

theorem lookup_writtenFields (ms : List (String × Json)) (name : String) :
    (writtenFields ms).lookup name = (ms.lookup name).map Written.ofJson := by
  induction ms with
  | nil => rfl
  | cons m ms ih =>
    obtain ⟨k, x⟩ := m
    simp only [writtenFields, List.map_cons, List.lookup_cons] at ih ⊢
    split
    · rfl
    · exact ih

theorem Fields.required_written {α : Type} {ms : List (String × Json)} {name : String} {v : Json}
    {decoder : Decoder α} {depth : Nat} {a : α} (hv : ms.lookup name = some v)
    (ha : decoder depth (Written.ofJson v) = some a) :
    (writtenFields ms).required name decoder depth = some a := by
  rw [Fields.required, lookup_writtenFields, hv]
  exact ha

theorem Fields.default_written {α : Type} {ms : List (String × Json)} {name : String} {v : Json}
    {decoder : Decoder α} {depth : Nat} {a fallback : α} (hv : ms.lookup name = some v)
    (ha : decoder depth (Written.ofJson v) = some a) :
    (writtenFields ms).default name decoder depth fallback = some a := by
  rw [Fields.default, lookup_writtenFields, hv]
  exact ha

theorem Fields.default_missing {α : Type} {ms : List (String × Json)} {name : String} {decoder : Decoder α}
    {depth : Nat} {fallback : α} (hv : ms.lookup name = none) :
    (writtenFields ms).default name decoder depth fallback = some fallback := by
  rw [Fields.default, lookup_writtenFields, hv]
  rfl

theorem knownMembers?_ofJsonMembers {names : List String} {ms : List (String × Json)} (hmem : ∀ m ∈ ms, m.1 ∈ names)
    (hnodup : (ms.map (·.1)).Nodup) : knownMembers? names (Written.ofJsonMembers ms) = some (writtenFields ms) := by
  induction ms with
  | nil => rfl
  | cons m ms ih =>
    rw [List.map_cons, List.nodup_cons] at hnodup
    have hrest := ih (fun x hx => hmem x (List.mem_cons_of_mem _ hx)) hnodup.2
    have hnew : (writtenFields ms).lookup m.1 = none := by
      rw [lookup_writtenFields, Option.map_eq_none_iff, List.lookup_eq_none_iff]
      intro x hx
      rw [bne_iff_ne]
      exact fun he => hnodup.1 (he ▸ List.mem_map_of_mem hx)
    simp only [Written.ofJsonMembers, knownMembers?, hrest, Option.bind_eq_bind, Option.bind_some,
      if_pos (hmem m List.mem_cons_self), hnew, Option.isSome_none, Bool.false_eq_true, if_false]
    rfl

/-- A record is read from the object of its fields, of which some may be left out. -/
theorem Decoder.record_ofJson {α : Type} {names : List String} {build : Nat → Fields → Option α} {depth : Nat}
    {ms : List (String × Json)} (hnodup : names.Nodup) (hsub : (ms.map (·.1)).Sublist names) :
    Decoder.record names build (depth + 1) (Written.ofJson (.object ms)) = build depth (writtenFields ms) := by
  have hmem : ∀ m ∈ ms, m.1 ∈ names := fun m hm => hsub.subset (List.mem_map_of_mem hm)
  rw [Decoder.record, Written.ofJson, fields?, knownMembers?_ofJsonMembers hmem (hsub.nodup hnodup)]
  rfl

/-- Each item of a list that was read was read itself, from one of the items of the document. -/
theorem Decoder.exists_of_mem_list {α : Type} {decoder : Decoder α} {depth : Nat} {w : Written} {xs : List α}
    (h : list decoder (depth + 1) w = some xs) {x : α} (hx : x ∈ xs) : ∃ u, decoder depth u = some x := by
  cases w with
  | array items =>
    replace h : items.mapM (decoder depth) = some xs := h
    induction items generalizing xs with
    | nil =>
      obtain rfl := Option.some.inj h
      cases hx
    | cons u items ih =>
      rw [List.mapM_cons] at h
      obtain ⟨y, hy, h⟩ := Option.bind_eq_some_iff.mp h
      obtain ⟨ys, hys, h⟩ := Option.bind_eq_some_iff.mp h
      obtain rfl := Option.some.inj h
      rcases List.mem_cons.mp hx with rfl | hx
      · exact ⟨u, hy⟩
      · exact ih hx hys
  | _ => cases h

/-- What is read from the compact text of a value is read from its document. -/
theorem decode?_write {α : Type} (decoder : Decoder α) (v : Json) :
    decode? decoder v.write = decoder nesting (Written.ofJson v) := by
  rw [decode?, Written.ofText?_write v]
  rfl

end TicketDesk.Json
