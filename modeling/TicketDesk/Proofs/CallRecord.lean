import TicketDesk.Proofs.Store.Slices

/-! # Calls in records

A call is written in a record of its own and as a part of the entry that keeps it, each time with the body as a member
that is there or not. The two are read by different rules: in an entry a member that is there is a body, while in a call
one of `null` is none. So an entry gives back every call, and a call gives back all but those that post `null`. -/

namespace TicketDesk

open Json (Written)

/-! ### Calls read back -/

namespace Call

/-- The body that is read of a call: `null` is none. -/
def bodyRead : Option Json → Option Json
  | some .null => none
  | body => body

theorem nullable_value_ofJson {v : Json} {depth : Nat} (h : v.Portable depth) :
    (Json.Decoder.nullable .value) depth (Written.ofJson v) = some (bodyRead (some v)) := by
  have hread : Json.Decoder.value depth (Written.ofJson v) = some v := Written.value?_ofJson h
  cases v with
  | null => rfl
  | _ => exact Option.map_eq_some_iff.mpr ⟨_, hread, rfl⟩

theorem decoder_toJson {c : Call} {depth : Nat} (h : ∀ v, c.body = some v → v.Portable depth) :
    decoder (depth + 1) (Written.ofJson c.toJson) = some { c with body := bodyRead c.body } := by
  obtain ⟨service, method, path, body⟩ := c
  rw [decoder, toJson, Json.Decoder.record_ofJson]
  · refine Option.bind_eq_some_iff.mpr ⟨service, Json.Fields.required_written rfl (service.decoder_name depth), ?_⟩
    refine Option.bind_eq_some_iff.mpr ⟨method, Json.Fields.required_written rfl (method.decoder_name depth), ?_⟩
    refine Option.bind_eq_some_iff.mpr ⟨path, Json.Fields.required_written rfl rfl, ?_⟩
    refine Option.bind_eq_some_iff.mpr ⟨bodyRead body, ?_, rfl⟩
    cases body with
    | none => exact Json.Fields.default_missing rfl
    | some v => exact Json.Fields.default_written rfl (nullable_value_ofJson (h v rfl))
  · decide
  · cases body <;> exact List.isSublist_iff_sublist.mp rfl

theorem decode?_toJson {c : Call} (h : ∀ v, c.body = some v → v.Portable 126) :
    Json.decode? decoder c.toJson.write = some { c with body := bodyRead c.body } := by
  rw [Json.decode?_write]
  exact decoder_toJson h

end Call

/-! ### Entries read back -/

theorem Entry.decode?_toJson {e : Entry} (h : ∀ v, e.body = some v → v.Portable 126) :
    Json.decode? decoder e.toJson.write = some e := by
  rw [Json.decode?_write]
  exact decoder_toJson h

/-! ### Both -/

namespace Call

/-- A call comes back from its JSON exactly if its body is not `null`, and without its body if it is. From the JSON of
    an entry that records it under any label and with any answer it comes back in any case. The body nests at most 126
    containers, which makes 127 with the record around it, and holds no binary64 number. -/
theorem codecs_agree {c : Call} (h : ∀ v, c.body = some v → v.Portable 126) :
    (Json.decode? decoder c.toJson.write = some c ↔ c.body ≠ some .null) ∧
    (c.body = some .null → Json.decode? decoder c.toJson.write = some { c with body := none }) ∧
    (∀ e : Entry, e.call = c → Json.decode? Entry.decoder e.toJson.write = some e) ∧
    ∀ label a m, (Json.decode? Entry.decoder (Entry.record label c a m).toJson.write).map Entry.call = some c := by
  have hentry (e : Entry) (he : e.call = c) : Json.decode? Entry.decoder e.toJson.write = some e :=
    Entry.decode?_toJson fun v hv => h v (he ▸ hv)
  refine ⟨?_, ?_, hentry, fun label a m => ?_⟩
  · rw [decode?_toJson h]
    obtain ⟨service, method, path, body⟩ := c
    rcases body with _ | v
    · simp [bodyRead]
    · cases v <;> simp [bodyRead]
  · intro hnull
    rw [decode?_toJson h, hnull]
    rfl
  · rw [hentry (Entry.record label c a m) rfl]
    rfl

/-- A call with a nested body, and the same call with `null` for a body. -/
theorem codecs_agree_nested_and_null :
    let c : Call := .post .order "/orders" (.object [("lines", .array [.ofInt64 (-3), .null])])
    let e : Entry := .record "Create" c ⟨201, "", 8⟩ ⟨2, 7, "09:00:01"⟩
    Json.decode? decoder c.toJson.write = some c ∧ Json.decode? Entry.decoder e.toJson.write = some e ∧
    Json.decode? decoder (toJson { c with body := some .null }).write = some { c with body := none } := by
  intro c e
  have hbody : ∀ v, c.body = some v → v.Portable 126 := fun v hv => by
    obtain rfl := Option.some.inj hv
    exact ⟨rfl, rfl, by decide⟩
  have hnull : ∀ v, ({ c with body := some .null } : Call).body = some v → v.Portable 126 := fun v hv => by
    obtain rfl := Option.some.inj hv
    exact ⟨rfl, rfl, by decide⟩
  exact ⟨(codecs_agree hbody).1.mpr (by simp [c, post]), (codecs_agree hbody).2.2.1 e rfl, (codecs_agree hnull).2.1 rfl⟩

/-- The JSON of a call that posts `null` does not give the call back, and the JSON of an entry that records it does. -/
theorem null_body_lost :
    let c : Call := .post .order "/orders" .null
    let e : Entry := .record "null body" c ⟨200, "\x7b\x7d", 1⟩ ⟨2, 7, "09:00:01"⟩
    Json.decode? decoder c.toJson.write ≠ some c ∧ (Json.decode? Entry.decoder e.toJson.write).map Entry.call = some c := by
  intro c e
  have hnull : ∀ v, some Json.null = some v → v.Portable 126 := fun v hv => by
    obtain rfl := Option.some.inj hv
    exact ⟨rfl, rfl, by decide⟩
  refine ⟨?_, ?_⟩
  · rw [decode?_toJson hnull]
    simp [c, post, bodyRead]
  · rw [Entry.decode?_toJson hnull]
    rfl

end Call

end TicketDesk
