import TicketDesk.Proofs.BaseUrl
import TicketDesk.Proofs.Json.Fields
import TicketDesk.Proofs.Json.Record

/-! # Configuration files

Whatever a file gives and however it is written, the configuration that is loaded from it is complete: each part has the
value that the file gives, or its default, and each service has a base URL of its own. So it can be written and comes back
as it is. -/

namespace TicketDesk

open Json (Written Given)

/-! ### URLs by service -/

/-- The last entry counts when none before it has the key. -/
theorem lookup_concat {κ α : Type} [BEq κ] [LawfulBEq κ] [DecidableEq κ] (entries : List (κ × α)) (k key : κ) (a : α) :
    (entries ++ [(k, a)]).lookup key = (entries.lookup key).or (if key = k then some a else none) := by
  rw [List.lookup_append]
  by_cases h : key = k
  · simp [h]
  · simp [h, List.lookup_cons, beq_false_of_ne h]

theorem Service.eq_name_of_ofName? {name : String} {s : Service} (h : ofName? name = some s) : name = s.name := by
  have hname := List.find?_some h
  exact (beq_iff_eq.mp hname).symm

theorem Service.name_injective {s t : Service} (h : s.name = t.name) : s = t :=
  Option.some.inj ((s.ofName?_name.symm.trans (congrArg ofName? h)).trans t.ofName?_name)

namespace Config

/-- The URL that is read for a service is the last one that stands under its name. -/
theorem lookup_reverse_of_urls? {depth : Nat} {members : List (Option String × Written)}
    {urls : Service → Option String} (h : urls? depth members = some urls) (s : Service) :
    members.reverse.lookup (some s.name) = (urls s).map fun url => .text (some url) := by
  induction members generalizing urls with
  | nil =>
    obtain rfl := Option.some.inj h
    rfl
  | cons m members ih =>
    obtain ⟨key, w⟩ := m
    obtain ⟨service, hservice, h⟩ := Option.bind_eq_some_iff.mp h
    obtain ⟨url, hurl, h⟩ := Option.bind_eq_some_iff.mp h
    obtain ⟨later, hlater, h⟩ := Option.bind_eq_some_iff.mp h
    obtain rfl := Option.some.inj h
    obtain ⟨name, rfl, hname⟩ := Option.bind_eq_some_iff.mp hservice
    obtain rfl := Service.eq_name_of_ofName? hname
    obtain rfl := Json.eq_text_of_text hurl
    have hkey : (some s.name = some service.name) = (s = service) :=
      propext ⟨fun hn => Service.name_injective (Option.some.inj hn), fun hs => hs ▸ rfl⟩
    rw [List.reverse_cons, lookup_concat, ih hlater]
    cases hs : later s with
    | some u => simp [hs]
    | none =>
      simp only [hs, hkey, Option.map_none]
      split <;> rfl

/-- URLs that were written are read, the last one of each service. -/
theorem urls?_ofJsonMembers (depth : Nat) (entries : List (Service × String)) :
    urls? depth (Written.ofJsonMembers (entries.map fun entry => (entry.1.name, .text entry.2))) =
      some fun s => entries.reverse.lookup s := by
  induction entries with
  | nil => rfl
  | cons entry entries ih =>
    obtain ⟨service, url⟩ := entry
    simp only [List.map_cons, Written.ofJsonMembers, urls?, ih, Option.bind_eq_bind, Option.bind_some,
      Service.ofName?_name, Written.ofJson, Json.Decoder.text]
    refine congrArg some (funext fun s => ?_)
    rw [List.reverse_cons, lookup_concat]
    cases entries.reverse.lookup s <;> rfl

theorem lookup_listed (c : Config) (s : Service) : c.listed.reverse.lookup s = c.services s := by
  have hmem {url : String} : (s, url) ∈ c.listed.reverse ↔ c.services s = some url := by
    rw [List.mem_reverse, mem_listed]
  cases h : c.listed.reverse.lookup s with
  | some url =>
    obtain ⟨front, back, hsplit, -⟩ := List.lookup_eq_some_iff.mp h
    exact (hmem.mp (hsplit ▸ List.mem_append_right _ List.mem_cons_self)).symm
  | none =>
    cases hs : c.services s with
    | none => rfl
    | some url => simpa using List.lookup_eq_none_iff.mp h (s, url) (hmem.mpr hs)

/-! ### Writing and loading -/

theorem decoder_toJson (c : Config) (depth : Nat) : decoder (depth + 2) (Written.ofJson c.toJson) = some c := by
  have hurls : urlsDecoder (depth + 1)
      (Written.ofJson (.object (c.listed.map fun entry => (entry.1.name, .text entry.2)))) = some c.services := by
    rw [Written.ofJson, urlsDecoder, urls?_ofJsonMembers]
    exact congrArg some (funext c.lookup_listed)
  have hdir : (Json.Decoder.nullable .text) (depth + 1) (Written.ofJson (.ofText? c.stateDir)) = some c.stateDir := by
    cases c.stateDir <;> rfl
  rw [decoder, toJson, Json.Decoder.record_ofJson]
  · simp [Json.Fields.default, Json.lookup_writtenFields, List.lookup_cons, hurls, hdir, Json.Decoder.uint64_ofJson]
  · decide
  · exact .refl _

theorem completed_of_services {c : Config} (h : ∀ s, ∃ url, c.services s = some url) : c.completed = c := by
  have hservices : (fun s => some ((c.services s).getD s.localUrl)) = c.services := funext fun s => by
    obtain ⟨url, hurl⟩ := h s
    rw [hurl, Option.getD_some]
  rw [completed, hservices]

/-- A configuration with a URL for every service comes back from its text in every layout. -/
theorem load_toJson {c : Config} (h : ∀ s, ∃ url, c.services s = some url) (path : String) {text : String}
    (htext : Written.ofText? text = some (.ofJson c.toJson)) : load path (.ok text) = .ok c := by
  have hread : decoder Json.nesting (.ofJson c.toJson) = some c := c.decoder_toJson 125
  rw [load, ofFile?, Json.decode?, htext, Option.bind_some, hread, Option.map_some, completed_of_services h]

/-! ### What is loaded -/

/-- The fields of a configuration, in their order. -/
def fieldNames : List String := ["services", "request_timeout_secs", "poll_interval_secs", "state_dir"]

/-- The URL that a document gives for a service: of two the last one. -/
def urlIn (w : Written) (s : Service) : Option Written :=
  (w.field? fieldNames "services").bind fun
    | .object members => members.reverse.lookup (some s.name)
    | _ => none

/-- A configuration has what a document gives, and the defaults for what it leaves out. -/
structure ReadFrom (w : Written) (c : Config) : Prop where
  services : ∀ s, ∃ url, c.services s = some url ∧ Given (urlIn w s) (.text s.localUrl) (.text url)
  requestTimeout : Given (w.field? fieldNames "request_timeout_secs") (.ofUInt64 10) (.ofUInt64 c.requestTimeoutSecs)
  pollInterval : Given (w.field? fieldNames "poll_interval_secs") (.ofUInt64 3) (.ofUInt64 c.pollIntervalSecs)
  stateDir : Given (w.field? fieldNames "state_dir") .null (.ofText? c.stateDir)

theorem given_url {depth : Nat} {w : Written} {fields : Json.Fields} {urls : Service → Option String}
    (hfields : Json.fields? fieldNames w = some fields)
    (h : fields.default "services" urlsDecoder depth initial.services = some urls) (s : Service) :
    Given (urlIn w s) (.text s.localUrl) (.text ((urls s).getD s.localUrl)) := by
  rw [Json.Fields.default, Json.lookup_fields? hfields (by decide)] at h
  rw [urlIn]
  cases hfield : w.field? fieldNames "services" with
  | none =>
    rw [hfield] at h
    obtain rfl := Option.some.inj h
    rfl
  | some d =>
    rw [hfield] at h
    cases depth with
    | zero => cases h
    | succ depth =>
      cases d with
      | object members =>
        have hlast := lookup_reverse_of_urls? h s
        simp only [Option.bind_some, hlast]
        cases urls s <;> rfl
      | _ => cases h

theorem readFrom_of_ofFile? {text : String} {c : Config} (h : ofFile? text = some c) :
    ∃ w, Written.ofText? text = some w ∧ c.ReadFrom w := by
  obtain ⟨read, hread, rfl⟩ := Option.map_eq_some_iff.mp h
  obtain ⟨w, hw, hread⟩ := Option.bind_eq_some_iff.mp hread
  obtain ⟨fields, hfields, hread⟩ := Option.bind_eq_some_iff.mp hread
  obtain ⟨urls, hurls, hread⟩ := Option.bind_eq_some_iff.mp hread
  obtain ⟨timeout, htimeout, hread⟩ := Option.bind_eq_some_iff.mp hread
  obtain ⟨interval, hinterval, hread⟩ := Option.bind_eq_some_iff.mp hread
  obtain ⟨dir, hdir, hread⟩ := Option.bind_eq_some_iff.mp hread
  obtain rfl := Option.some.inj hread
  exact ⟨w, hw, {
    services := fun s => ⟨_, rfl, given_url hfields hurls s⟩
    requestTimeout := Json.given_of_default (fun h => Json.value?_of_uint64 h _) hfields (by decide) htimeout
    pollInterval := Json.given_of_default (fun h => Json.value?_of_uint64 h _) hfields (by decide) hinterval
    stateDir := Json.given_of_default (fun h => Json.value?_of_nullable_text h _) hfields (by decide) hdir }⟩

/-- Whatever file is loaded, the configuration has what the file gives and the defaults for the rest, every call has a
    URL, and what is written of the configuration, in either layout, is loaded as the configuration that was written. -/
theorem load_complete {path text : String} {c : Config} (h : load path (.ok text) = .ok c) :
    (∃ w, Written.ofText? text = some w ∧ c.ReadFrom w) ∧
    (∀ call, ∃ url, c.services call.service = some url ∧ c.url call = .ok (bareUrl url ++ call.path)) ∧
    ∀ path', load path' (.ok c.toJson.write) = .ok c ∧ load path' (.ok c.toJson.pretty) = .ok c := by
  have hfile : ofFile? text = some c := by
    rw [load] at h
    split at h
    · next hread => rw [hread, Except.ok.inj h]
    · cases h
  obtain ⟨w, hw, hreadFrom⟩ := readFrom_of_ofFile? hfile
  have hservices (s : Service) : ∃ url, c.services s = some url :=
    let ⟨url, hurl, _⟩ := hreadFrom.services s
    ⟨url, hurl⟩
  refine ⟨⟨w, hw, hreadFrom⟩, fun call => ?_, fun path' => ⟨?_, ?_⟩⟩
  · obtain ⟨url, hurl⟩ := hservices call.service
    exact ⟨url, hurl, url_of_base (baseUrl?_of_services hurl)⟩
  · exact load_toJson hservices path' (Written.ofText?_write c.toJson)
  · exact load_toJson hservices path' (Written.ofText?_pretty c.toJson)

/-- A file that names one service of six, twice, and leaves out the time limit. -/
def partialFile : String :=
  "\x7b \"poll_interval_secs\": 5, \"theme\": [], " ++
    "\"services\": \x7b\"order\": \"http://a\", \"order\": \"https://b/\"\x7d\x7d"

theorem load_complete_partial :
    ∃ c, load "console.json" (.ok partialFile) = .ok c ∧
      (c.services .order = some "https://b/" ∧ c.services .query = some "http://127.0.0.1:8083" ∧
        c.pollIntervalSecs = 5 ∧ c.requestTimeoutSecs = 10) ∧
      (∃ w, Written.ofText? partialFile = some w ∧ c.ReadFrom w) ∧
      (∀ call, ∃ url, c.services call.service = some url ∧ c.url call = .ok (bareUrl url ++ call.path)) ∧
      ∀ path', load path' (.ok c.toJson.write) = .ok c ∧ load path' (.ok c.toJson.pretty) = .ok c := by
  have hloaded : (load "console.json" (.ok partialFile)).toOption.map (fun c =>
      (c.services .order, c.services .query, c.pollIntervalSecs, c.requestTimeoutSecs)) =
      some (some "https://b/", some "http://127.0.0.1:8083", 5, 10) := by decide +kernel
  cases h : load "console.json" (.ok partialFile) with
  | error fault =>
    rw [h] at hloaded
    cases hloaded
  | ok c =>
    rw [h] at hloaded
    have hparts := Option.some.inj hloaded
    simp only [Prod.mk.injEq] at hparts
    exact ⟨c, rfl, hparts, load_complete h⟩

end Config

end TicketDesk
