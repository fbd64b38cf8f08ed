import TicketDesk.Proofs.Execution
import TicketDesk.Proofs.Json.Fields
import TicketDesk.Proofs.Json.RoundTrip
import TicketDesk.Proofs.Work.Course

/-! # Bodies of answers

The body of an answer is kept as the value of its JSON, or as a text when it is none, and an error shows that data as
text again. The way there and back leaves everything as it is but two things: a body that is a quoted text loses its
quotes, and a text that is itself JSON is read as what it spells. -/

namespace TicketDesk

/-! ### Quoted texts are longer than what they say -/

namespace Json

theorem length_pieces?_lt {cs : List Char} {ps : List Piece} {after : List Char} (h : pieces? cs = some (ps, after)) :
    ps.length + after.length < cs.length := by
  fun_induction pieces? cs generalizing ps after with
  | case1 => cases h
  | case2 rest =>
    cases h
    simp
  | case3 a b c d rest ih =>
    obtain ⟨u, -, h⟩ := Option.bind_eq_some_iff.mp h
    obtain ⟨⟨qs, tail⟩, hrest, h⟩ := Option.bind_eq_some_iff.mp h
    cases h
    have := ih hrest
    simp only [List.length_cons]
    omega
  | case4 e rest _ ih =>
    obtain ⟨c, -, h⟩ := Option.bind_eq_some_iff.mp h
    obtain ⟨⟨qs, tail⟩, hrest, h⟩ := Option.bind_eq_some_iff.mp h
    cases h
    have := ih hrest
    simp only [List.length_cons]
    omega
  | case5 => cases h
  | case6 c rest _ _ _ _ ih =>
    obtain ⟨⟨qs, tail⟩, hrest, h⟩ := Option.bind_eq_some_iff.mp h
    cases h
    have := ih hrest
    simp only [List.length_cons]
    omega

theorem length_characters?_le {ps : List Piece} {cs : List Char} (h : characters? ps = some cs) :
    cs.length ≤ ps.length := by
  fun_induction characters? ps generalizing cs with grind [Option.map_eq_some_iff]

namespace Written

theorem length_text?_lt {cs : List Char} {s : String} {rest : List Char} (h : text? cs = some (some s, rest)) :
    s.length < cs.length := by
  obtain ⟨⟨ps, after⟩, hps, heq⟩ := Option.map_eq_some_iff.mp h
  obtain ⟨htext, -⟩ := Prod.mk.inj heq
  obtain ⟨ds, hds, rfl⟩ := Option.map_eq_some_iff.mp htext
  have hpieces := length_pieces?_lt hps
  have hchars : ds.length ≤ ps.length := length_characters?_le hds
  rw [String.length_ofList]
  omega

theorem text?_of_value {fuel : Nat} {cs rest : List Char} {t : Option String} (h : value fuel cs = some (.text t, rest)) :
    ∃ more, skip cs = '"' :: more ∧ text? more = some (t, rest) := by
  cases fuel with
  | zero => cases h
  | succ fuel =>
    rw [value] at h
    split at h
    case h_4 more hskip =>
      obtain ⟨r, hr, heq⟩ := Option.map_eq_some_iff.mp h
      cases heq
      exact ⟨more, hskip, hr⟩
    case h_5 => split at h <;> simp at h
    case h_6 => split at h <;> simp at h
    all_goals simp [number?] at h

end Written

/-- A text that is read from a document is shorter than the document. -/
theorem length_of_read?_text {s u : String} (h : read? s = some (.text u)) : u.length < s.length := by
  obtain ⟨w, hw, hvalue⟩ := Option.bind_eq_some_iff.mp h
  obtain rfl := Written.eq_text_of_value? hvalue
  rw [Written.ofText?, Written.ofChars?] at hw
  split at hw
  case h_2 => cases hw
  case h_1 x rest hread =>
    split at hw
    case isFalse => cases hw
    case isTrue =>
      obtain rfl := Option.some.inj hw
      obtain ⟨more, hskip, htext⟩ := Written.text?_of_value hread
      have hlength := List.length_dropWhile_le Written.isSpace s.toList
      rw [Written.skip] at hskip
      rw [hskip, List.length_cons, String.length_toList] at hlength
      exact (Written.length_text?_lt htext).trans_le (by omega)

end Json

/-! ### There and back -/

/-- A text and a value that is none, of which the text is the compact JSON. -/
def Json.Spells (v w : Json) : Prop := v = .text w.write ∧ ∀ s, w ≠ .text s

variable {v w : Json}

theorem renderBody_of_ne_text (h : ∀ s, v ≠ .text s) : renderBody v = v.write := by
  cases v with
  | text s => exact absurd rfl (h s)
  | _ => rfl

theorem renderBody_parseBody {text : String} (hne : text ≠ "") (hread : Json.read? text = none) :
    renderBody (parseBody text) = text := by
  rw [parseBody, if_neg hne, hread]
  rfl

theorem parseBody_renderBody (hv : ∀ s, v ≠ .text s) (h : v.Portable Json.nesting) : parseBody (renderBody v) = v := by
  rw [renderBody_of_ne_text hv, parseBody, if_neg v.write_ne_empty, Json.read?_write h]
  rfl

theorem parseBody_eq_text_iff {s : String} : parseBody s = .text s ↔ s ≠ "" ∧ Json.read? s = none := by
  constructor
  · intro h
    rw [parseBody] at h
    split at h
    case isTrue => cases h
    case isFalse hne =>
      cases hread : Json.read? s with
      | none => exact ⟨hne, rfl⟩
      | some u =>
        rw [hread, Option.getD_some] at h
        exact absurd (Json.length_of_read?_text (h ▸ hread)) (Nat.lt_irrefl _)
  · rintro ⟨hne, hread⟩
    rw [parseBody, if_neg hne, hread]
    rfl

/-- Values with one body text are the same, or one is the text that spells the other. -/
theorem renderBody_eq_iff : renderBody v = renderBody w ↔ v = w ∨ v.Spells w ∨ w.Spells v := by
  constructor
  · intro h
    by_cases hv : ∃ s, v = .text s
    · obtain ⟨s, rfl⟩ := hv
      by_cases hw : ∃ t, w = .text t
      · obtain ⟨t, rfl⟩ := hw
        exact .inl (congrArg Json.text h)
      · rw [not_exists] at hw
        rw [renderBody_of_ne_text hw] at h
        exact .inr (.inl ⟨congrArg Json.text h, hw⟩)
    · rw [not_exists] at hv
      rw [renderBody_of_ne_text hv] at h
      by_cases hw : ∃ t, w = .text t
      · obtain ⟨t, rfl⟩ := hw
        exact .inr (.inr ⟨congrArg Json.text h.symm, hv⟩)
      · rw [not_exists] at hw
        rw [renderBody_of_ne_text hw] at h
        exact .inl (Json.write_injective h)
  · rintro (rfl | ⟨rfl, hw⟩ | ⟨rfl, hv⟩)
    · rfl
    · exact (renderBody_of_ne_text hw).symm
    · exact renderBody_of_ne_text hv

/-! ### The body of an error -/

/-- What the body text of an error tells of the data that it was made of: which data it was, but for a text that spells
    other data, and the data itself where it is read back. -/
structure Tells (body : String) (data : Json) : Prop where
  determined : ∀ other, renderBody other = body ↔ other = data ∨ other.Spells data ∨ data.Spells other
  recovered : data.isExact = true → (∀ s, data = .text s → s ≠ "" ∧ Json.read? s = none) → parseBody body = data

theorem sorted_parseBody (text : String) : (parseBody text).isSorted = true ∧ (parseBody text).depth ≤ Json.nesting := by
  rw [parseBody]
  split
  · decide
  · cases hread : Json.read? text with
    | none => exact ⟨rfl, Nat.zero_le _⟩
    | some v =>
      obtain ⟨written, -, hvalue⟩ := Option.bind_eq_some_iff.mp hread
      exact Json.Written.shape_of_value? hvalue

theorem tells_renderBody (text : String) : Tells (renderBody (parseBody text)) (parseBody text) where
  determined _ := renderBody_eq_iff
  recovered hexact hraw := by
    obtain ⟨hsorted, hshallow⟩ := sorted_parseBody text
    by_cases h : ∃ s, parseBody text = .text s
    · obtain ⟨s, hs⟩ := h
      rw [hs]
      exact parseBody_eq_text_iff.mpr (hraw s hs)
    · rw [not_exists] at h
      exact parseBody_renderBody h ⟨hexact, hsorted, hshallow⟩

section Execution

variable {σ : Type} {c : Config} {r : Request} {w : World σ} {s : Store} {x : σ} {status : UInt16} {body : String}

theorem Request.answered_of_http (h : (r.trace c w s x).outcome = .error (.http status body)) :
    ∃ a, r.SentOnce c w x (r.trace c w s x) (.answer a) ∧ status = a.status ∧ body = renderBody (parseBody a.body) := by
  cases hb : c.baseUrl? r.call.service with
  | none =>
    have hends : Unconfigured c r s (r.trace c w s x) := ends_of_no_base hb
    rw [hends.outcome] at h
    cases h
  | some base =>
    cases hr : (w.send (r.wire base) x).1 with
    | unreachable detail =>
      obtain ⟨-, hends⟩ := ends_of_unreachable (s := s) hb hr
      rw [hends.outcome] at h
      cases h
    | answer a =>
      obtain ⟨hsent, hends⟩ := ends_of_answer (s := s) hb hr
      by_cases hok : 200 ≤ a.status ∧ a.status < 300
      · rw [(hends.success hok).1] at h
        cases h
      · rw [(hends.failure hok).1] at h
        cases h
        exact ⟨a, hsent, rfl, rfl⟩

end Execution

/-- Rendering a body gives back what was parsed unless it is empty or JSON, and parsing gives back what was rendered:
    every value but a text that nests at most 127 containers and holds no binary64 number, and a text exactly if it is
    neither empty nor JSON. So what an error with a status shows tells the data of the answer, but for a text that is
    JSON and what it spells. -/
theorem bodies_survive :
    (∀ text, text ≠ "" → Json.read? text = none → renderBody (parseBody text) = text) ∧
    (∀ v : Json, (∀ s, v ≠ .text s) → v.Portable 127 → parseBody (renderBody v) = v) ∧
    (∀ s, parseBody (renderBody (.text s)) = .text s ↔ s ≠ "" ∧ Json.read? s = none) ∧
    ∀ {σ : Type} (c : Config) (r : Request) (w : World σ) (s : Store) (x : σ) (status : UInt16) (body : String),
      (r.trace c w s x).outcome = .error (.http status body) →
      ∃ a, r.SentOnce c w x (r.trace c w s x) (.answer a) ∧ status = a.status ∧ Tells body (parseBody a.body) := by
  refine ⟨fun _ => renderBody_parseBody, fun _ => parseBody_renderBody, fun _ => parseBody_eq_text_iff, ?_⟩
  intro σ c r w s x status body h
  obtain ⟨a, hsent, hstatus, rfl⟩ := Request.answered_of_http h
  exact ⟨a, hsent, hstatus, tells_renderBody a.body⟩

/-- A backend that refuses every request with a quoted number. -/
def Tells.refusal : World Unit := .saying (.answer ⟨502, "\"1\"", 5⟩) ⟨2, 7, "09:00:01"⟩ 0

def Tells.request : Request := ⟨"Order", ⟨.order, .get, "/x", none⟩, none⟩

/-- A refusal with a quoted number shows the number, which is what a number shows too. Texts that are no JSON and objects
    come back. -/
theorem bodies_survive_refusal :
    renderBody (parseBody "upstream timeout") = "upstream timeout" ∧
    parseBody (renderBody (.object [("error", .text "x")])) = .object [("error", .text "x")] ∧
    parseBody (renderBody (.text "null")) ≠ .text "null" ∧
    Tells "1" (.text "1") := by
  obtain ⟨hraw, hvalue, htext, herror⟩ := bodies_survive
  refine ⟨hraw _ (by decide) rfl, hvalue _ (by simp) ⟨by decide, by decide, by decide⟩, fun h => ?_, ?_⟩
  · have hread : Json.read? "null" = some .null := rfl
    have hnone := ((htext "null").mp h).2
    rw [hread] at hnone
    cases hnone
  · obtain ⟨a, ⟨base, -, -, hreply⟩, -, htells⟩ :=
      herror .initial Tells.request Tells.refusal (.load (.reliable fun _ => none)) () 502 "1" rfl
    obtain rfl := Reply.answer.inj hreply
    have hquoted : Json.read? "\"1\"" = some (.text "1") := rfl
    rwa [parseBody, if_neg (by decide), hquoted, Option.getD_some] at htells

end TicketDesk
