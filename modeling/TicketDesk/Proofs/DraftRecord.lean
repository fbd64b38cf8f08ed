import Mathlib.Data.Finset.Insert
import TicketDesk.Proofs.Json.Fields
import TicketDesk.Proofs.Json.Record
import TicketDesk.Proofs.Wire
import TicketDesk.Store

/-! # The record of the drafts

The drafts are read from any record of some of their fields: what it leaves out has its default. A record that says
anything else of a field than a value that the field holds is refused as a whole, and a store that is opened on it has
the drafts of one that is opened on none. -/

namespace TicketDesk

open Json (Written Given)

/-- The values that a field holds: whole numbers of 64 signed bits, or texts. -/
def Field.Holds (f : Field) : Json → Prop
  | .whole n => f.isNumeric = true ∧ n.val < 0x8000000000000000
  | .text _ => f.isNumeric = false
  | _ => False

namespace Drafts

/-- The names of the fields, in the order of the record. -/
def names : List String := Field.all.map Field.name

/-! ### The record -/

theorem mem_names (f : Field) : f.name ∈ names := List.mem_map_of_mem f.mem_all

theorem text_injective : Function.Injective Json.text := fun _ _ => Json.text.inj

/-- The drafts that are read from a document are those whose fields have the values that it gives, and defaults. -/
theorem decoder_eq_some_iff {w : Written} {r : Drafts} :
    decoder Json.nesting w = some r ↔
      w.IsRecord names ∧ ∀ f : Field, Given (w.field? names f.name) (({} : Drafts).value f) (r.value f) := by
  have htext {fields : Json.Fields} (hfields : Json.fields? names w = some fields) (f : Field) (fallback s : String) :
      fields.default f.name .text 126 fallback = some s ↔ Given (w.field? names f.name) (.text fallback) (.text s) :=
    Json.default_eq_some_iff text_injective (Json.text_eq_some_iff _) hfields (mem_names f)
  have hword {fields : Json.Fields} (hfields : Json.fields? names w = some fields) (f : Field) (fallback n : Int64) :
      fields.default f.name .int64 126 fallback = some n ↔
        Given (w.field? names f.name) (.ofInt64 fallback) (.ofInt64 n) :=
    Json.default_eq_some_iff (fun _ _ => ofInt64_injective) (Json.int64_eq_some_iff _) hfields (mem_names f)
  rw [← Json.exists_fields?_iff, decoder, show Json.nesting = 126 + 1 from rfl, Json.Decoder.record]
  constructor
  · intro h
    obtain ⟨fields, hfields, h⟩ := Option.bind_eq_some_iff.mp h
    simp only [Option.bind_eq_bind, Option.bind_eq_some_iff, Option.pure_def, Option.some.injEq] at h
    obtain ⟨orderId, h1, idempotencyKey, h2, amountCents, h3, providerTxnId, h4, paymentStatus, h5, queryOrderId, h6,
      partitionKey, h7, holdId, h8, qty, h9, capacity, h10, rfl⟩ := h
    refine ⟨⟨fields, hfields⟩, fun f => ?_⟩
    cases f with
    | amountCents => exact (hword hfields .amountCents _ _).mp h3
    | qty => exact (hword hfields .qty _ _).mp h9
    | capacity => exact (hword hfields .capacity _ _).mp h10
    | _ => exact (htext hfields _ _ _).mp ‹_›
  · rintro ⟨⟨fields, hfields⟩, h⟩
    refine Option.bind_eq_some_iff.mpr ⟨fields, hfields, ?_⟩
    simp only [Option.bind_eq_bind, Option.bind_eq_some_iff, Option.pure_def, Option.some.injEq]
    exact ⟨_, (htext hfields _ _ _).mpr (h .orderId), _, (htext hfields _ _ _).mpr (h .idempotencyKey), _,
      (hword hfields _ _ _).mpr (h .amountCents), _, (htext hfields _ _ _).mpr (h .providerTxnId), _,
      (htext hfields _ _ _).mpr (h .paymentStatus), _, (htext hfields _ _ _).mpr (h .queryOrderId), _,
      (htext hfields _ _ _).mpr (h .partitionKey), _, (htext hfields _ _ _).mpr (h .holdId), _,
      (hword hfields _ _ _).mpr (h .qty), _, (hword hfields _ _ _).mpr (h .capacity), rfl⟩

/-- The drafts of which each field is taken from drafts of its own. -/
def gathered (source : Field → Drafts) : Drafts where
  orderId := (source .orderId).orderId
  idempotencyKey := (source .idempotencyKey).idempotencyKey
  amountCents := (source .amountCents).amountCents
  providerTxnId := (source .providerTxnId).providerTxnId
  paymentStatus := (source .paymentStatus).paymentStatus
  queryOrderId := (source .queryOrderId).queryOrderId
  partitionKey := (source .partitionKey).partitionKey
  holdId := (source .holdId).holdId
  qty := (source .qty).qty
  capacity := (source .capacity).capacity

theorem value_gathered (source : Field → Drafts) (f : Field) : (gathered source).value f = (source f).value f := by
  cases f <;> rfl

theorem holds_value (d : Drafts) (f : Field) : f.Holds (d.value f) := by
  cases f with
  | amountCents => exact ⟨rfl, d.amountCents.toInt_lt⟩
  | qty => exact ⟨rfl, d.qty.toInt_lt⟩
  | capacity => exact ⟨rfl, d.capacity.toInt_lt⟩
  | _ => exact rfl

/-! ### Records of some fields -/

/-- A text is read as drafts that have the given values in some fields and the initial ones in the others. -/
def Fills (text : String) (d : Drafts) (S : Finset Field) : Prop :=
  ∃ r, Json.decode? decoder text = some r ∧
    ∀ f, (f ∈ S → r.value f = d.value f) ∧ (f ∉ S → r.value f = ({} : Drafts).value f)

/-- The members give the fields of `S` their values, each once, in any order and among any others that have not the name
    of a field. -/
structure Gives (d : Drafts) (S : Finset Field) (members : List (Option String × Written)) : Prop where
  keys : none ∉ members.map (·.1)
  once : ∀ f : Field, (members.map (·.1)).count (some f.name) = if f ∈ S then 1 else 0
  values : ∀ (f : Field) (w : Written), (some f.name, w) ∈ members → w.value? Json.nesting = some (d.value f)

section Filling

variable {d : Drafts} {S : Finset Field} {text : String}

theorem fills_of_field? {w : Written} (htext : Written.ofText? text = some w) (hrecord : w.IsRecord names)
    (hmem : ∀ f : Field, f ∈ S ↔ (w.field? names f.name).isSome = true)
    (hvalue : ∀ (f : Field) (u : Written), w.field? names f.name = some u → u.value? Json.nesting = some (d.value f)) :
    Fills text d S := by
  let r := gathered fun f => if f ∈ S then d else {}
  have hr (f : Field) : r.value f = if f ∈ S then d.value f else ({} : Drafts).value f := by
    rw [value_gathered]
    split <;> rfl
  refine ⟨r, ?_, fun f => ⟨fun h => (hr f).trans (if_pos h), fun h => (hr f).trans (if_neg h)⟩⟩
  rw [Json.decode?, htext, Option.bind_some, decoder_eq_some_iff]
  refine ⟨hrecord, fun f => ?_⟩
  cases hfield : w.field? names f.name with
  | some u =>
    have hf : f ∈ S := (hmem f).mpr (by rw [hfield]; rfl)
    rw [hr, if_pos hf]
    exact hvalue f u hfield
  | none =>
    have hf : f ∉ S := fun h => by simpa [hfield] using (hmem f).mp h
    rw [hr, if_neg hf]
    rfl

theorem fills_of_gives {members : List (Option String × Written)} (h : Gives d S members)
    (htext : Written.ofText? text = some (.object members)) : Fills text d S := by
  refine fills_of_field? htext ⟨h.keys, fun name hname => ?_⟩ (fun f => ?_) fun f u hu => ?_
  · obtain ⟨f, -, rfl⟩ := List.mem_map.mp hname
    rw [h.once]
    split <;> omega
  · rw [show Written.field? names f.name (.object members) = members.lookup (some f.name) from rfl,
      Json.isSome_lookup_iff, ← List.count_pos_iff, h.once]
    split <;> simp_all
  · obtain ⟨before, after, hsplit, -⟩ := List.lookup_eq_some_iff.mp hu
    exact h.values f u (by rw [hsplit]; simp)

/-- Members as they are written give what they hold. -/
theorem gives_ofJsonMembers {ms : List (String × Json)}
    (honce : ∀ f : Field, (ms.map (·.1)).count f.name = if f ∈ S then 1 else 0)
    (hvalue : ∀ (f : Field) (v : Json), (f.name, v) ∈ ms → v = d.value f) : Gives d S (Written.ofJsonMembers ms) := by
  have hkeys : (Written.ofJsonMembers ms).map (·.1) = (ms.map (·.1)).map some := by
    rw [Written.ofJsonMembers_eq_map, List.map_map, List.map_map]
    rfl
  refine ⟨by simp [hkeys], fun f => ?_, fun f w hw => ?_⟩
  · rw [hkeys, List.count_map_of_injective _ _ (Option.some_injective _)]
    exact honce f
  · rw [Written.ofJsonMembers_eq_map] at hw
    obtain ⟨⟨k, v⟩, hm, heq⟩ := List.mem_map.mp hw
    obtain ⟨hk, rfl⟩ := Prod.mk.inj heq
    obtain rfl := Option.some.inj hk
    rw [hvalue f v hm]
    exact Written.value?_ofJson (d.portable_value f _)

theorem idxOf_names (f : Field) : names.idxOf f.name = Field.all.idxOf f := by
  cases f <;> rfl

theorem fills_of_items {k : Nat} {items : List Written}
    (hitems : items.map (Written.value? Json.nesting) = (Field.all.take k).map fun f => some (d.value f))
    (htext : Written.ofText? text = some (.array items)) : Fills text d (Field.all.take k).toFinset := by
  have hlength : items.length = min k 10 := by
    have h := congrArg List.length hitems
    rwa [List.length_map, List.length_map, List.length_take] at h
  have hfield (f : Field) : Written.field? names f.name (.array items) = items[Field.all.idxOf f]? := by
    rw [← idxOf_names]
    rfl
  refine fills_of_field? htext (hlength.trans_le (Nat.min_le_right _ _)) (fun f => ?_) fun f u hu => ?_
  · have hplace : Field.all.idxOf f < 10 := List.idxOf_lt_length_iff.mpr f.mem_all
    rw [List.mem_toFinset, List.mem_take_iff_idxOf_lt f.mem_all, hfield, isSome_getElem?]
    omega
  · rw [hfield] at hu
    obtain ⟨hplace, -⟩ := List.getElem?_eq_some_iff.mp hu
    have hvalue := congrArg (·[Field.all.idxOf f]?) hitems
    simp only [List.getElem?_map, hu, List.getElem?_take_of_lt (show Field.all.idxOf f < k by omega),
      List.getElem?_idxOf f.mem_all, Option.map_some, Option.some.injEq] at hvalue
    exact hvalue

end Filling

/-! ### Records that are refused -/

/-- What no drafts are read from: a field named twice, or a field with anything but a value that it holds. -/
inductive Spoiled (w : Written) : Prop where
  | repeated (f : Field) (members : List (Option String × Written)) (hw : w = .object members)
    (htwice : 2 ≤ (members.map (·.1)).count (some f.name))
  | unheld (f : Field) (u : Written) (hfield : w.field? names f.name = some u)
    (hvalue : ∀ v, u.value? Json.nesting = some v → ¬f.Holds v)

theorem decode?_of_spoiled {text : String} {w : Written} (htext : Written.ofText? text = some w) (h : Spoiled w) :
    Json.decode? decoder text = none := by
  rw [Json.decode?, htext, Option.bind_some, Option.eq_none_iff_forall_ne_some]
  intro r hr
  obtain ⟨hrecord, hgiven⟩ := decoder_eq_some_iff.mp hr
  cases h with
  | repeated f members hw htwice =>
    subst hw
    have honce := hrecord.2 f.name (mem_names f)
    omega
  | unheld f u hfield hvalue =>
    have hread := hgiven f
    rw [hfield] at hread
    exact hvalue _ hread (r.holds_value f)

end Drafts

/-- The backend without a text of the drafts. -/
def Backend.withoutDrafts (b : Backend) : Backend :=
  { b with blobs := fun key => if key = .drafts then none else b.blobs key }

namespace Drafts

theorem state_load_of_refused {b : Backend} {text : String} (hblob : b.blobs .drafts = some text)
    (h : Json.decode? decoder text = none) :
    (Store.load b).state.drafts = {} ∧ (Store.load b).state = (Store.load b.withoutDrafts).state := by
  have hdrafts : State.loadDrafts (b.blobs .drafts) = {} := by
    rw [hblob, State.loadDrafts, Option.bind_some, h]
    rfl
  rw [Store.load, State.ofBlobs, hdrafts]
  exact ⟨rfl, rfl⟩

/-! ### Both -/

/-- An object that gives some fields their values, in any order and among any other members, and an array of the first
    fields are read as drafts with these values and the initial ones in the other fields. A record that is spoiled is read
    as no drafts at all, and a store that is opened on it has the initial drafts and is otherwise as if there were none:
    session and log are read from their own texts. -/
theorem records_fill_in :
    (∀ (d : Drafts) (S : Finset Field) (members : List (Option String × Written)) (text : String), Gives d S members →
      Written.ofText? text = some (.object members) → Fills text d S) ∧
    (∀ (d : Drafts) (S : Finset Field) (ms : List (String × Json)),
      (∀ f : Field, (ms.map (·.1)).count f.name = if f ∈ S then 1 else 0) →
      (∀ (f : Field) (v : Json), (f.name, v) ∈ ms → v = d.value f) →
      Fills (Json.object ms).write d S ∧ Fills (Json.object ms).pretty d S) ∧
    (∀ (d : Drafts) (k : Nat) (items : List Written) (text : String),
      items.map (Written.value? 127) = (Field.all.take k).map (fun f => some (d.value f)) →
      Written.ofText? text = some (.array items) → Fills text d (Field.all.take k).toFinset) ∧
    (∀ (d : Drafts) (k : Nat),
      Fills (Json.array ((Field.all.take k).map d.value)).write d (Field.all.take k).toFinset) ∧
    ∀ (text : String) (w : Written), Written.ofText? text = some w → Spoiled w →
      Json.decode? decoder text = none ∧
      ∀ b : Backend, b.blobs .drafts = some text →
        (Store.load b).state.drafts = {} ∧ (Store.load b).state = (Store.load b.withoutDrafts).state := by
  refine ⟨fun _ _ _ _ => fills_of_gives, fun d S ms honce hvalue => ?_, fun _ _ _ _ => fills_of_items, fun d k => ?_, ?_⟩
  · have hgives := gives_ofJsonMembers honce hvalue
    exact ⟨fills_of_gives hgives (Written.ofText?_write _), fills_of_gives hgives (Written.ofText?_pretty _)⟩
  · refine fills_of_items ?_ (Written.ofText?_write _)
    rw [Written.ofJsonItems_eq_map, List.map_map, List.map_map]
    exact List.map_congr_left fun f _ => Written.value?_ofJson (d.portable_value f _)
  · intro text w htext hspoiled
    have hrefused := decode?_of_spoiled htext hspoiled
    exact ⟨hrefused, fun b hblob => state_load_of_refused hblob hrefused⟩

/-- Two fields behind a member that is none, a quantity that is the float 1.0, and an order id given twice. -/
theorem records_fill_in_float :
    Fills (Json.object [("theme", .array [.null]), ("qty", .ofInt64 7), ("order_id", .text "o-1")]).write
      { orderId := "o-1", qty := 7 } {.orderId, .qty} ∧
    (∀ b : Backend, b.blobs .drafts = some (Json.object [("qty", .real ⟨false, 1023 * Binary64.perUnit, by decide⟩)]).write →
      (Store.load b).state.drafts = {}) ∧
    ∀ b : Backend, b.blobs .drafts = some (Json.object [("order_id", .text "a"), ("order_id", .text "b")]).write →
      (Store.load b).state.drafts = {} := by
  obtain ⟨-, hobject, -, -, hrefused⟩ := records_fill_in
  refine ⟨(hobject _ _ _ (fun f => ?_) fun f v hv => ?_).1, ?_, ?_⟩
  · cases f <;> rfl
  · cases f <;> simp [Field.name] at hv <;> simp [hv, value]
  · generalize (⟨false, 1023 * Binary64.perUnit, by decide⟩ : Binary64) = x
    have hspoiled : Spoiled (.ofJson (.object [("qty", .real x)])) := .unheld .qty (.number x.numeral) rfl fun v hv => by
      obtain ⟨y, rfl⟩ := Json.Numeral.eq_real_of_real? ((Json.Numeral.value?_of_isReal x.isReal_numeral).symm.trans hv)
      exact id
    exact fun b hblob => ((hrefused _ _ (Written.ofText?_write _) hspoiled).2 b hblob).1
  · have hspoiled : Spoiled (.ofJson (.object [("order_id", .text "a"), ("order_id", .text "b")])) :=
      .repeated .orderId _ rfl (by decide)
    exact fun b hblob => ((hrefused _ _ (Written.ofText?_write _) hspoiled).2 b hblob).1

end Drafts

end TicketDesk
