import Mathlib.Data.List.Basic
import TicketDesk.Json.Record
import TicketDesk.Proofs.Json.Numeral

/-! # The fields of a document

A document holds the fields of a record under their names or, if it is an array, at their places. What is read of a field
is the value that stands there, and a field that does not stand there has its default. No record is read from a document
that names a field twice or has a value too many. -/

namespace TicketDesk.Json

/-- What a document has for a field of a record with these names. -/
def Written.field? (names : List String) (name : String) : Written → Option Written
  | .array items => items[names.idxOf name]?
  | .object members => members.lookup (some name)
  | _ => none

/-- A field has this value if a document gives it, and otherwise its default. -/
def Given (field : Option Written) (fallback value : Json) : Prop :=
  match field with
  | some w => w.value? nesting = some value
  | none => value = fallback

/-! ### Finding a field -/

theorem isSome_lookup_iff {key : Option String} {members : List (Option String × Written)} :
    (members.lookup key).isSome = true ↔ key ∈ members.map (·.1) := by
  rw [List.lookup_isSome_iff, List.mem_map]
  exact exists_congr fun m => and_congr_right fun _ => beq_iff_eq.trans eq_comm

theorem lookup_zip (names : List String) (items : List Written) {name : String} (h : name ∈ names) :
    (names.zip items).lookup name = items[names.idxOf name]? := by
  induction names generalizing items with
  | nil => cases h
  | cons n names ih =>
    by_cases hn : n = name
    · subst hn
      cases items <;> simp
    · have hmem : name ∈ names := (List.mem_cons.mp h).resolve_left (Ne.symm hn)
      cases items with
      | nil => simp
      | cons w items => simp [List.idxOf_cons_ne names hn, List.lookup_cons, beq_false_of_ne (Ne.symm hn), ih items hmem]

theorem lookup_knownMembers? {names : List String} {members : List (Option String × Written)} {fields : Fields}
    (h : knownMembers? names members = some fields) {name : String} (hname : name ∈ names) :
    fields.lookup name = members.lookup (some name) := by
  induction members generalizing fields with
  | nil =>
    obtain rfl := Option.some.inj h
    rfl
  | cons m members ih =>
    obtain ⟨_ | k, w⟩ := m
    · cases h
    · obtain ⟨found, hfound, h⟩ := Option.bind_eq_some_iff.mp h
      have hrest := ih hfound
      by_cases hk : name = k
      · subst hk
        rw [if_pos hname] at h
        split at h
        · cases h
        · obtain rfl := Option.some.inj h
          simp
      · have hother : (found.lookup name = fields.lookup name) := by
          split at h
          · split at h
            · cases h
            · obtain rfl := Option.some.inj h
              simp [List.lookup_cons, beq_false_of_ne hk]
          · rw [Option.some.inj h]
        rw [← hother, hrest, List.lookup_cons, beq_false_of_ne fun heq => hk (Option.some.inj heq)]

theorem lookup_fields? {names : List String} {w : Written} {fields : Fields} (h : fields? names w = some fields)
    {name : String} (hname : name ∈ names) : fields.lookup name = w.field? names name := by
  cases w with
  | array items =>
    rw [fields?] at h
    split at h
    · obtain rfl := Option.some.inj h
      exact lookup_zip names items hname
    · cases h
  | object members => exact lookup_knownMembers? h hname
  | _ => cases h

/-! ### Reading a field -/

section Reading

variable {depth : Nat} {w : Written}

theorem Written.not_container_of_value? {v : Json} (h : w.value? depth = some v) (hv : v.depth = 0) :
    (∀ items, w ≠ .array items) ∧ ∀ members, w ≠ .object members := by
  constructor <;> rintro parts rfl <;> cases depth
  case left.succ =>
    obtain ⟨_, -, rfl⟩ := Option.map_eq_some_iff.mp h
    cases hv
  case right.succ =>
    obtain ⟨_, -, rfl⟩ := Option.map_eq_some_iff.mp h
    cases hv
  all_goals cases h

theorem Written.eq_text_of_value? {s : String} (h : w.value? depth = some (.text s)) : w = .text (some s) := by
  have hcontainer := not_container_of_value? h rfl
  cases w with
  | number n => rcases Numeral.value?_cases h with ⟨w, hw⟩ | ⟨x, hx⟩ <;> contradiction
  | text t =>
    obtain ⟨s, rfl, hs⟩ := Option.map_eq_some_iff.mp h
    rw [Json.text.inj hs]
  | array items => exact absurd rfl (hcontainer.1 items)
  | object members => exact absurd rfl (hcontainer.2 members)
  | _ => cases h

theorem Written.eq_number_of_value? {n : Whole} (h : w.value? depth = some (.whole n)) :
    ∃ numeral, w = .number numeral ∧ numeral.value? = some (.whole n) := by
  have hcontainer := not_container_of_value? h rfl
  cases w with
  | number numeral => exact ⟨numeral, rfl, h⟩
  | text t =>
    obtain ⟨_, _, h⟩ := Option.map_eq_some_iff.mp h
    cases h
  | array items => exact absurd rfl (hcontainer.1 items)
  | object members => exact absurd rfl (hcontainer.2 members)
  | _ => cases h

theorem Whole.ofUInt64_ofNat {k : Whole} (h : 0 ≤ k.val) : Whole.ofUInt64 (.ofNat k.val.toNat) = k := by
  obtain ⟨val, hlower, hupper⟩ := k
  obtain ⟨n, rfl⟩ := Int.eq_ofNat_of_zero_le h
  have hlt : n < UInt64.size := Int.ofNat_lt.mp hupper
  simp [Whole.ofUInt64, UInt64.toNat_ofNat_of_lt' hlt]

theorem value?_of_whole {n : Int} (h : Decoder.whole depth w = some n) (m : Nat) :
    ∃ k : Whole, k.val = n ∧ w.value? m = some (.whole k) := by
  cases w with
  | number numeral =>
    rw [Decoder.whole] at h
    split at h
    · next k hk => exact ⟨k, Option.some.inj h, hk⟩
    · cases h
  | _ => cases h

theorem whole_eq_some_iff {n : Int} (m : Nat) :
    Decoder.whole depth w = some n ↔ ∃ k : Whole, k.val = n ∧ w.value? m = some (.whole k) := by
  constructor
  · exact fun h => value?_of_whole h m
  · rintro ⟨k, rfl, h⟩
    obtain ⟨numeral, rfl, hvalue⟩ := Written.eq_number_of_value? h
    rw [Decoder.whole, hvalue]

theorem Whole.ofInt64_ofInt {k : Whole} (h : k.val < 0x8000000000000000) : Whole.ofInt64 (.ofInt k.val) = k := by
  obtain ⟨val, hlower, hupper⟩ := k
  simp [Whole.ofInt64, Int64.toInt_ofInt_of_le hlower h]

theorem int64_eq_some_iff {n : Int64} (m : Nat) : Decoder.int64 depth w = some n ↔ w.value? m = some (.ofInt64 n) := by
  constructor
  · intro h
    obtain ⟨_, hwhole, h⟩ := Option.bind_eq_some_iff.mp h
    obtain ⟨k, rfl, hvalue⟩ := value?_of_whole hwhole m
    split at h
    case isFalse => cases h
    case isTrue hk =>
      obtain rfl := Option.some.inj h
      rw [hvalue, ofInt64, Whole.ofInt64_ofInt hk]
  · intro h
    have hwhole : Decoder.whole depth w = some n.toInt := (whole_eq_some_iff m).mpr ⟨_, rfl, h⟩
    have hlt : n.toInt < 0x8000000000000000 := n.toInt_lt
    rw [Decoder.int64, hwhole, Option.bind_some, if_pos hlt, n.ofInt_toInt]

theorem value?_of_uint64 {n : UInt64} (h : Decoder.uint64 depth w = some n) (m : Nat) :
    w.value? m = some (.ofUInt64 n) := by
  obtain ⟨_, hwhole, h⟩ := Option.bind_eq_some_iff.mp h
  obtain ⟨k, rfl, hvalue⟩ := value?_of_whole hwhole m
  split at h
  case isFalse => cases h
  case isTrue hk =>
    obtain rfl := Option.some.inj h
    rw [hvalue, ofUInt64, Whole.ofUInt64_ofNat hk]

theorem eq_text_of_text {s : String} (h : Decoder.text depth w = some s) : w = .text (some s) := by
  cases w with
  | text o => exact congrArg Written.text h
  | _ => cases h

theorem text_eq_some_iff {s : String} (m : Nat) : Decoder.text depth w = some s ↔ w.value? m = some (.text s) :=
  ⟨fun h => by rw [eq_text_of_text h]; rfl, fun h => by rw [Written.eq_text_of_value? h]; rfl⟩

theorem value?_of_nullable_text {o : Option String} (h : (Decoder.nullable .text) depth w = some o) (m : Nat) :
    w.value? m = some (.ofText? o) := by
  cases w with
  | null =>
    obtain rfl := Option.some.inj h
    rfl
  | text t =>
    obtain ⟨s, hs, rfl⟩ := Option.map_eq_some_iff.mp h
    obtain rfl : t = some s := hs
    rfl
  | _ => cases h

/-- What is read of a field is the value that it is given, or its default. -/
theorem given_of_default {α : Type} {toJson : α → Json} {decoder : Decoder α} {names : List String} {name : String}
    {fields : Fields} {fallback a : α} (hvalue : ∀ {w : Written}, decoder depth w = some a → w.value? nesting = some (toJson a))
    (hfields : fields? names w = some fields) (hname : name ∈ names)
    (h : fields.default name decoder depth fallback = some a) :
    Given (w.field? names name) (toJson fallback) (toJson a) := by
  rw [Fields.default, lookup_fields? hfields hname] at h
  cases hfield : w.field? names name with
  | some d =>
    rw [hfield] at h
    exact hvalue h
  | none =>
    rw [hfield] at h
    exact congrArg toJson (Option.some.inj h).symm

/-- A field reads a value exactly if the document gives it, or if it gives none and the value is the default. -/
theorem default_eq_some_iff {α : Type} {toJson : α → Json} (hinj : Function.Injective toJson) {decoder : Decoder α}
    {names : List String} {name : String} {fields : Fields} {fallback a : α}
    (hvalue : ∀ {w : Written}, decoder depth w = some a ↔ w.value? nesting = some (toJson a))
    (hfields : fields? names w = some fields) (hname : name ∈ names) :
    fields.default name decoder depth fallback = some a ↔ Given (w.field? names name) (toJson fallback) (toJson a) := by
  refine ⟨given_of_default hvalue.mp hfields hname, fun h => ?_⟩
  rw [Fields.default, lookup_fields? hfields hname]
  cases hfield : w.field? names name with
  | some d => exact hvalue.mpr (by rwa [hfield] at h)
  | none =>
    rw [hfield] at h
    exact congrArg some (hinj h).symm

end Reading

/-! ### Which documents have fields -/

/-- Whether a document may be a record with these fields: a list that is not too long, or an object whose keys are texts
    and in which no field stands twice. -/
def Written.IsRecord (names : List String) : Written → Prop
  | .array items => items.length ≤ names.length
  | .object members =>
    none ∉ members.map (·.1) ∧ ∀ name ∈ names, (members.map (·.1)).count (some name) ≤ 1
  | _ => False

theorem isRecord_cons {w : Written} {names : List String} {k : String} {members : List (Option String × Written)} :
    (Written.object ((some k, w) :: members)).IsRecord names ↔
      (k ∈ names → some k ∉ members.map (·.1)) ∧ (Written.object members).IsRecord names := by
  simp only [Written.IsRecord, List.map_cons, List.mem_cons, List.count_cons, reduceCtorEq, false_or, beq_iff_eq,
    Option.some.injEq]
  constructor
  · rintro ⟨hkeys, honce⟩
    refine ⟨fun hk hmem => ?_, hkeys, fun name hname => ?_⟩
    · have hcount := honce k hk
      have hpos := List.count_pos_iff.mpr hmem
      simp only [if_true] at hcount
      omega
    · exact (Nat.le_add_right _ _).trans (honce name hname)
  · rintro ⟨hnew, hkeys, honce⟩
    refine ⟨hkeys, fun name hname => ?_⟩
    split
    case isTrue heq =>
      subst heq
      rw [List.count_eq_zero_of_not_mem (hnew hname)]
    case isFalse => exact honce name hname

theorem exists_knownMembers?_iff {names : List String} {members : List (Option String × Written)} :
    (∃ fields, knownMembers? names members = some fields) ↔ (Written.object members).IsRecord names := by
  induction members with
  | nil => exact ⟨fun _ => ⟨by simp, by simp⟩, fun _ => ⟨[], rfl⟩⟩
  | cons m members ih =>
    obtain ⟨_ | k, w⟩ := m
    · exact iff_of_false (by simp [knownMembers?]) fun h => absurd List.mem_cons_self h.1
    rw [isRecord_cons, ← ih]
    have hlookup {found : Fields} (hfound : knownMembers? names members = some found) (hk : k ∈ names) :
        (found.lookup k).isSome = true ↔ some k ∈ members.map (·.1) := by
      rw [lookup_knownMembers? hfound hk, isSome_lookup_iff]
    constructor
    · rintro ⟨fields, h⟩
      obtain ⟨found, hfound, h⟩ := Option.bind_eq_some_iff.mp h
      refine ⟨fun hk hmem => ?_, found, hfound⟩
      rw [if_pos hk, if_pos ((hlookup hfound hk).mpr hmem)] at h
      cases h
    · rintro ⟨hnew, found, hfound⟩
      rw [knownMembers?, hfound]
      by_cases hk : k ∈ names
      · have hnone : ¬(found.lookup k).isSome = true := mt (hlookup hfound hk).mp (hnew hk)
        exact ⟨_, (if_pos hk).trans (if_neg hnone)⟩
      · exact ⟨_, if_neg hk⟩

theorem exists_fields?_iff {w : Written} {names : List String} : (∃ fields, fields? names w = some fields) ↔ w.IsRecord names := by
  cases w with
  | array items => simp [fields?, Written.IsRecord]
  | object members => exact exists_knownMembers?_iff
  | _ => exact iff_of_false (by simp [fields?]) False.elim

end TicketDesk.Json
