import TicketDesk.Proofs.Json.Record
import TicketDesk.Store

/-! # Slices read back

The three persisted slices come back from their texts: a session or none, the drafts, and a log whose
bodies come back. The bodies of a log that was read come back when none of them holds a binary64
number. -/

namespace TicketDesk

open Json (Written Portable writtenFields)

/-! ### Sessions -/

theorem Session.decoder_toJson (s : Session) (depth : Nat) :
    Session.decoder (depth + 1) (Written.ofJson s.toJson) = some s := by
  rw [Session.decoder, Session.toJson, Json.Decoder.record_ofJson]
  · rfl
  · decide
  · exact .refl _

theorem State.loadSession_null : State.loadSession (some Json.null.write) = none := by
  rw [State.loadSession, Option.bind_some, Json.decode?_write]
  rfl

theorem State.loadSession_toJson (s : Session) : State.loadSession (some s.toJson.write) = some s := by
  rw [State.loadSession, Option.bind_some, Json.decode?_write]
  exact congrArg (fun x : Option Session => (x.map some).join) (s.decoder_toJson 126)

/-! ### Drafts -/

theorem Drafts.decoder_toJson (d : Drafts) (depth : Nat) :
    Drafts.decoder (depth + 1) (Written.ofJson d.toJson) = some d := by
  rw [Drafts.decoder, Drafts.toJson, Json.Decoder.record_ofJson]
  · simp [Json.Fields.default, Json.lookup_writtenFields, Field.name, List.lookup_cons, Json.Decoder.int64_ofJson,
      Json.Decoder.text, Written.ofJson]
  · decide
  · exact .refl _

theorem State.loadDrafts_toJson (d : Drafts) : State.loadDrafts (some d.toJson.write) = d := by
  rw [State.loadDrafts, Option.bind_some, Json.decode?_write]
  exact congrArg (fun x : Option Drafts => x.getD {}) (d.decoder_toJson 126)

/-! ### Entries -/

/-- The body of an entry, when it has one, is a value that comes back from the text of a log. -/
def Entry.Portable (e : Entry) : Prop := ∀ v, e.body = some v → v.Portable 125

theorem Service.decoder_name (s : Service) (depth : Nat) :
    Service.decoder depth (Written.ofJson (.text s.name)) = some s :=
  Json.Decoder.name_ofJson s.ofName?_name depth

theorem Method.decoder_name (m : Method) (depth : Nat) :
    Method.decoder depth (Written.ofJson (.text m.name)) = some m :=
  Json.Decoder.name_ofJson m.ofName?_name depth

theorem Entry.decoder_toJson {e : Entry} {depth : Nat} (h : ∀ v, e.body = some v → v.Portable depth) :
    Entry.decoder (depth + 1) (Written.ofJson e.toJson) = some e := by
  obtain ⟨id, time, label, service, method, path, body, ok, status, duration⟩ := e
  rw [decoder, toJson, Json.Decoder.record_ofJson]
  -- The body may be missing, so the fields after it are looked up once with it and once without.
  · refine Option.bind_eq_some_iff.mpr ⟨id, Json.Fields.required_written rfl rfl, ?_⟩
    refine Option.bind_eq_some_iff.mpr ⟨time, Json.Fields.required_written rfl rfl, ?_⟩
    refine Option.bind_eq_some_iff.mpr ⟨label, Json.Fields.required_written rfl rfl, ?_⟩
    refine Option.bind_eq_some_iff.mpr ⟨service, Json.Fields.required_written rfl (service.decoder_name depth), ?_⟩
    refine Option.bind_eq_some_iff.mpr ⟨method, Json.Fields.required_written rfl (method.decoder_name depth), ?_⟩
    refine Option.bind_eq_some_iff.mpr ⟨path, Json.Fields.required_written rfl rfl, ?_⟩
    refine Option.bind_eq_some_iff.mpr ⟨body, ?_, ?_⟩
    · cases body with
      | none => exact Json.Fields.default_missing rfl
      | some v =>
        refine Json.Fields.default_written rfl ?_
        rw [Json.Decoder.value, Written.value?_ofJson (h v rfl)]
        rfl
    refine Option.bind_eq_some_iff.mpr ⟨ok, Json.Fields.required_written (by cases body <;> rfl) rfl, ?_⟩
    refine Option.bind_eq_some_iff.mpr
      ⟨status, Json.Fields.required_written (by cases body <;> rfl) (Json.Decoder.uint16_ofJson depth status), ?_⟩
    exact Option.bind_eq_some_iff.mpr
      ⟨duration, Json.Fields.required_written (by cases body <;> rfl) (Json.Decoder.uint64_ofJson depth duration), rfl⟩
  · decide
  · cases body <;> exact List.isSublist_iff_sublist.mp rfl

/-- The body of an entry that was read is sorted and nests no deeper than was allowed. -/
theorem Entry.shape_of_decoder {e : Entry} {depth : Nat} {w : Written} {v : Json}
    (h : Entry.decoder (depth + 1) w = some e) (hv : e.body = some v) : v.isSorted = true ∧ v.depth ≤ depth := by
  obtain ⟨fields, -, h⟩ := Option.bind_eq_some_iff.mp h
  obtain ⟨id, -, h⟩ := Option.bind_eq_some_iff.mp h
  obtain ⟨time, -, h⟩ := Option.bind_eq_some_iff.mp h
  obtain ⟨label, -, h⟩ := Option.bind_eq_some_iff.mp h
  obtain ⟨service, -, h⟩ := Option.bind_eq_some_iff.mp h
  obtain ⟨method, -, h⟩ := Option.bind_eq_some_iff.mp h
  obtain ⟨path, -, h⟩ := Option.bind_eq_some_iff.mp h
  obtain ⟨body, hbody, h⟩ := Option.bind_eq_some_iff.mp h
  obtain ⟨ok, -, h⟩ := Option.bind_eq_some_iff.mp h
  obtain ⟨status, -, h⟩ := Option.bind_eq_some_iff.mp h
  obtain ⟨duration, -, h⟩ := Option.bind_eq_some_iff.mp h
  obtain rfl := Option.some.inj h
  obtain rfl : body = some v := hv
  rw [Json.Fields.default] at hbody
  split at hbody
  · obtain ⟨u, hu, hsome⟩ := Option.map_eq_some_iff.mp hbody
    obtain rfl := Option.some.inj hsome
    exact Written.shape_of_value? hu
  · cases hbody

/-- The body of an entry whose record is read nests no deeper than was allowed. -/
theorem Entry.depth_body_le {e e' : Entry} {depth : Nat} {v : Json}
    (h : Entry.decoder (depth + 1) (Written.ofJson e.toJson) = some e') (hv : e.body = some v) : v.depth ≤ depth := by
  obtain ⟨id, time, label, service, method, path, body, ok, status, duration⟩ := e
  obtain rfl : body = some v := hv
  rw [decoder, toJson, Json.Decoder.record_ofJson] at h
  · obtain ⟨id', -, h⟩ := Option.bind_eq_some_iff.mp h
    obtain ⟨time', -, h⟩ := Option.bind_eq_some_iff.mp h
    obtain ⟨label', -, h⟩ := Option.bind_eq_some_iff.mp h
    obtain ⟨service', -, h⟩ := Option.bind_eq_some_iff.mp h
    obtain ⟨method', -, h⟩ := Option.bind_eq_some_iff.mp h
    obtain ⟨path', -, h⟩ := Option.bind_eq_some_iff.mp h
    obtain ⟨body', hbody, -⟩ := Option.bind_eq_some_iff.mp h
    obtain ⟨u, hu, -⟩ := Option.map_eq_some_iff.mp hbody
    exact Written.depth_le_of_value?_ofJson hu
  · decide
  · exact List.isSublist_iff_sublist.mp rfl

/-! ### Logs -/

theorem Entry.mapM_decoder_toJson {es : List Entry} (hp : ∀ e ∈ es, e.Portable) :
    (Written.ofJsonItems (es.map toJson)).mapM (decoder 126) = some es := by
  induction es with
  | nil => rfl
  | cons e es ih =>
    rw [List.map_cons, Written.ofJsonItems, List.mapM_cons, decoder_toJson (hp e List.mem_cons_self),
      ih fun x hx => hp x (List.mem_cons_of_mem _ hx)]
    rfl

/-- A log that is not over its capacity comes back when the bodies of its entries do. -/
theorem State.loadHistory_toJson {h : History} (hp : ∀ e ∈ h.entries, e.Portable)
    (hlen : h.entries.length ≤ History.capacity) : State.loadHistory (some h.toJson.write) = h := by
  have hread : Json.decode? History.decoder h.toJson.write = some h.entries := by
    rw [Json.decode?_write]
    exact Entry.mapM_decoder_toJson hp
  rw [State.loadHistory, Option.bind_some, hread, Option.getD_some, History.ofEntries, List.take_of_length_le hlen]

theorem Entry.exists_of_mapM_decoder {es out : List Entry} {depth : Nat}
    (h : (Written.ofJsonItems (es.map toJson)).mapM (decoder depth) = some out) :
    ∀ e ∈ es, ∃ e', decoder depth (Written.ofJson e.toJson) = some e' := by
  induction es generalizing out with
  | nil => exact fun _ he => by cases he
  | cons e es ih =>
    rw [List.map_cons, Written.ofJsonItems, List.mapM_cons] at h
    obtain ⟨e', he', h⟩ := Option.bind_eq_some_iff.mp h
    obtain ⟨rest, hrest, -⟩ := Option.bind_eq_some_iff.mp h
    exact List.forall_mem_cons.mpr ⟨⟨e', he'⟩, ih hrest⟩

/-- One body that nests deeper than the text of a log allows, and nothing of the log comes back. -/
theorem State.loadHistory_toJson_of_deep {h : History} {e : Entry} (he : e ∈ h.entries) {v : Json}
    (hv : e.body = some v) (hdeep : 125 < v.depth) : State.loadHistory (some h.toJson.write) = .empty := by
  have hread : Json.decode? History.decoder h.toJson.write = none := by
    rw [Option.eq_none_iff_forall_ne_some]
    intro out hout
    rw [Json.decode?_write] at hout
    obtain ⟨e', he'⟩ := Entry.exists_of_mapM_decoder hout e he
    have hshallow : v.depth ≤ 125 := Entry.depth_body_le he' hv
    omega
  rw [State.loadHistory, Option.bind_some, hread]
  rfl

/-- Whatever the text, the log that was read is not over its capacity. -/
theorem State.length_loadHistory_le (blob : Option String) :
    (State.loadHistory blob).entries.length ≤ History.capacity :=
  List.length_take_le _ _

/-- Whatever the text, the bodies that were read come back when they hold no binary64 number. -/
theorem State.portable_of_mem_loadHistory {blob : Option String} {e : Entry}
    (he : e ∈ (State.loadHistory blob).entries) (hexact : ∀ v, e.body = some v → v.isExact = true) : e.Portable := by
  intro v hv
  have hmem := List.mem_of_mem_take he
  cases hread : blob.bind (Json.decode? History.decoder) with
  | none => simp [hread] at hmem
  | some es =>
    rw [hread, Option.getD_some] at hmem
    obtain ⟨text, -, hdecode⟩ := Option.bind_eq_some_iff.mp hread
    obtain ⟨w, -, hlist⟩ := Option.bind_eq_some_iff.mp hdecode
    obtain ⟨u, hu⟩ := Json.Decoder.exists_of_mem_list hlist hmem
    obtain ⟨hsorted, hshallow⟩ := Entry.shape_of_decoder hu hv
    exact ⟨hexact v hv, hsorted, hshallow⟩

end TicketDesk
