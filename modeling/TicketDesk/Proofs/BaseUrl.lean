import Mathlib.Data.List.DropRight
import TicketDesk.Config

/-! # The base URL of a service

A configuration is checked on the URLs as they stand between the blanks around them, and a call goes to such a URL
without the slashes at its end. So the base has the scheme that was checked unless nothing but slashes follows it, and
no blank at its end unless one stands before the last slashes. -/

namespace TicketDesk

/-! ### Blanks and slashes at the ends -/

namespace Text

variable {cs : List Char} {c : Char}

theorem trimBlanks_eq (cs : List Char) : trimBlanks cs = (cs.dropWhile isBlank).rdropWhile isBlank := rfl

theorem dropFinalSlashes_eq (cs : List Char) : dropFinalSlashes cs = cs.rdropWhile (· == '/') := rfl

theorem mem_head?_of_rdropWhile {p : Char → Bool} (h : c ∈ (cs.rdropWhile p).head?) : c ∈ cs.head? := by
  obtain ⟨dropped, hcs⟩ := List.rdropWhile_prefix p cs
  rw [← hcs, List.head?_append, Option.mem_def.mp h]
  rfl

theorem isBlank_of_mem_head?_trimBlanks (h : c ∈ (trimBlanks cs).head?) : isBlank c = false := by
  have hhead : (cs.dropWhile isBlank).head? = some c := mem_head?_of_rdropWhile (trimBlanks_eq cs ▸ h)
  have hnot := List.head?_dropWhile_not isBlank cs
  rw [hhead] at hnot
  simpa using hnot

/-- The slashes at the end of a text stand behind what is left of it. -/
theorem exists_dropFinalSlashes (cs : List Char) : ∃ n, cs = dropFinalSlashes cs ++ List.replicate n '/' := by
  have hslashes : cs.rtakeWhile (· == '/') = List.replicate (cs.rtakeWhile (· == '/')).length '/' := by
    rw [List.eq_replicate_iff]
    exact ⟨rfl, fun c hc => by simpa using List.mem_rtakeWhile_imp hc⟩
  refine ⟨(cs.rtakeWhile (· == '/')).length, ?_⟩
  rw [← hslashes, dropFinalSlashes_eq, List.rdropWhile_append_rtakeWhile]

theorem getLast?_dropFinalSlashes (cs : List Char) : (dropFinalSlashes cs).getLast? ≠ some '/' := by
  intro h
  have hne : cs.rdropWhile (· == '/') ≠ [] := by
    intro hnil
    rw [dropFinalSlashes_eq, hnil] at h
    cases h
  refine List.rdropWhile_last_not _ _ hne ?_
  rw [beq_iff_eq]
  exact Option.some.inj ((List.getLast?_eq_some_getLast hne).symm.trans h)

theorem dropFinalSlashes_append_replicate (h : cs.getLast? ≠ some '/') (n : Nat) :
    dropFinalSlashes (cs ++ List.replicate n '/') = cs := by
  rw [dropFinalSlashes_eq]
  induction n with
  | zero =>
    rw [List.replicate_zero, List.append_nil, List.rdropWhile_eq_self_iff]
    intro hne hlast
    exact h ((List.getLast?_eq_some_getLast hne).trans (congrArg some (beq_iff_eq.mp hlast)))
  | succ n ih => rw [List.replicate_succ', ← List.append_assoc, List.rdropWhile_concat_pos (· == '/') _ _ rfl, ih]

theorem dropFinalSlashes_append {rest : List Char} (h : ∃ ch ∈ rest, ch ≠ '/') (front : List Char) :
    dropFinalSlashes (front ++ rest) = front ++ dropFinalSlashes rest := by
  obtain ⟨n, hrest⟩ := exists_dropFinalSlashes rest
  have hne : dropFinalSlashes rest ≠ [] := by
    intro hnil
    obtain ⟨ch, hch, hslash⟩ := h
    exact hslash (by simpa using List.rdropWhile_eq_nil_iff.mp hnil ch hch)
  have hend : (front ++ dropFinalSlashes rest).getLast? ≠ some '/' := by
    rw [List.getLast?_append_of_ne_nil _ hne]
    exact getLast?_dropFinalSlashes rest
  rw [← dropFinalSlashes_append_replicate hend n, List.append_assoc, ← hrest]

end Text

/-! ### What is checked -/

namespace Config

open Text

theorem hasHttpScheme_iff {url : List Char} :
    hasHttpScheme url = true ↔ ∃ rest, url = "http://".toList ++ rest ∨ url = "https://".toList ++ rest := by
  rw [hasHttpScheme, Bool.or_eq_true, List.isPrefixOf_iff_prefix, List.isPrefixOf_iff_prefix]
  constructor
  · rintro (⟨rest, rfl⟩ | ⟨rest, rfl⟩)
    · exact ⟨rest, Or.inl rfl⟩
    · exact ⟨rest, Or.inr rfl⟩
  · rintro ⟨rest, rfl | rfl⟩
    · exact Or.inl ⟨rest, rfl⟩
    · exact Or.inr ⟨rest, rfl⟩

theorem urlDefect?_eq_none_iff {service : Service} {url : String} :
    urlDefect? service url = none ↔ hasHttpScheme (trimBlanks url.toList) = true := by
  simp only [urlDefect?]
  split
  case isTrue hnil => simp [hnil, hasHttpScheme]
  case isFalse => split <;> simp_all

theorem mem_listed {c : Config} {service : Service} {url : String} :
    (service, url) ∈ c.listed ↔ c.services service = some url := by
  simp only [listed, List.mem_filterMap, Option.map_eq_some_iff, Prod.mk.injEq]
  constructor
  · rintro ⟨s, -, u, hu, rfl, rfl⟩
    exact hu
  · intro h
    exact ⟨service, Service.mem_all service, url, h, rfl, rfl⟩

theorem defect?_eq_none_iff {c : Config} :
    c.defect? = none ↔
      (∀ service url, c.services service = some url → hasHttpScheme (trimBlanks url.toList) = true) ∧
        c.pollIntervalSecs ≠ 0 := by
  have hurls : (c.listed.findSome? fun entry => urlDefect? entry.1 entry.2) = none ↔
      ∀ service url, c.services service = some url → hasHttpScheme (trimBlanks url.toList) = true := by
    simp only [List.findSome?_eq_none_iff, Prod.forall, mem_listed, urlDefect?_eq_none_iff]
  rw [← hurls, defect?]
  cases c.listed.findSome? fun entry => urlDefect? entry.1 entry.2 with
  | some d => simp
  | none => simp

/-! ### What is called -/

/-- Nothing but slashes follows the scheme of a URL. -/
def BareScheme (url : List Char) : Prop :=
  ∃ n, url = "http://".toList ++ List.replicate n '/' ∨ url = "https://".toList ++ List.replicate n '/'

/-- A blank stands before the slashes at the end of a URL. -/
def BlankBeforeSlashes (url : List Char) : Prop :=
  ∃ front blank n, isBlank blank = true ∧ url = front ++ blank :: List.replicate n '/'

/-- The base of a service as its calls use it, beside the URL as it was checked. -/
structure BaseOf (url base : List Char) : Prop where
  slashes : ∃ n, url = base ++ List.replicate n '/'
  leading : ∀ ch ∈ base.head?, isBlank ch = false
  ending : base.getLast? ≠ some '/'
  scheme : hasHttpScheme base = true ↔ ¬ BareScheme url
  trailing : (∀ ch ∈ base.getLast?, isBlank ch = false) ↔ ¬ BlankBeforeSlashes url

theorem hasHttpScheme_of_bareScheme {url : List Char} (h : BareScheme url) :
    hasHttpScheme (dropFinalSlashes url) = false := by
  have hdrop : ∀ (s : List Char) (n : Nat), s.getLast? ≠ some '/' →
      dropFinalSlashes ((s ++ ['/', '/']) ++ List.replicate n '/') = s := by
    intro s n hs
    rw [List.append_assoc]
    exact dropFinalSlashes_append_replicate hs (n + 2)
  -- Two slashes of the scheme go with those that follow it.
  obtain ⟨n, rfl | rfl⟩ := h
  · rw [show "http://".toList = "http:".toList ++ ['/', '/'] by decide, hdrop _ n (by decide)]
    decide
  · rw [show "https://".toList = "https:".toList ++ ['/', '/'] by decide, hdrop _ n (by decide)]
    decide

theorem hasHttpScheme_dropFinalSlashes {url : List Char} (hscheme : hasHttpScheme url = true) :
    hasHttpScheme (dropFinalSlashes url) = true ↔ ¬ BareScheme url := by
  constructor
  · intro h hbare
    rw [hasHttpScheme_of_bareScheme hbare] at h
    cases h
  · intro hbare
    obtain ⟨rest, hurl⟩ := hasHttpScheme_iff.mp hscheme
    have hrest : ∃ ch ∈ rest, ch ≠ '/' := by
      by_contra hslashes
      push Not at hslashes
      have hrep := List.eq_replicate_of_mem hslashes
      exact hbare ⟨rest.length, hurl.imp (fun h => hrep ▸ h) (fun h => hrep ▸ h)⟩
    refine hasHttpScheme_iff.mpr ⟨dropFinalSlashes rest, ?_⟩
    rcases hurl with rfl | rfl
    · exact Or.inl (dropFinalSlashes_append hrest _)
    · exact Or.inr (dropFinalSlashes_append hrest _)

theorem trailing_dropFinalSlashes {url : List Char} :
    (∀ ch ∈ (dropFinalSlashes url).getLast?, isBlank ch = false) ↔ ¬ BlankBeforeSlashes url := by
  constructor
  · rintro h ⟨front, blank, n, hblank, rfl⟩
    have hne : (front ++ [blank]).getLast? ≠ some '/' := by
      rw [List.getLast?_concat]
      rintro ⟨rfl⟩
      exact absurd hblank (by decide)
    have hdrop : dropFinalSlashes (front ++ blank :: List.replicate n '/') = front ++ [blank] := by
      rw [List.append_cons]
      exact dropFinalSlashes_append_replicate hne n
    have hnot := h blank (by rw [hdrop, List.getLast?_concat]; rfl)
    rw [hblank] at hnot
    cases hnot
  · intro h ch hch
    obtain ⟨n, hurl⟩ := exists_dropFinalSlashes url
    obtain ⟨front, hfront⟩ := List.getLast?_eq_some_iff.mp hch
    by_contra hblank
    refine h ⟨front, ch, n, by simpa using hblank, ?_⟩
    rw [List.append_cons, ← hfront]
    exact hurl

theorem baseUrl?_of_services {c : Config} {service : Service} {written : String}
    (h : c.services service = some written) : c.baseUrl? service = some (bareUrl written) := by
  rw [baseUrl?, h]
  rfl

/-- The base is the only text before the path. -/
theorem base_eq_bareUrl {c : Config} {call : Call} {written base : String}
    (hservice : c.services call.service = some written) (h : c.url call = .ok (base ++ call.path)) :
    base = bareUrl written := by
  rw [url_of_base (baseUrl?_of_services hservice)] at h
  exact ((String.append_left_inj call.path).mp (Except.ok.inj h)).symm

/-- A call to a service of a configuration without a defect goes to the base of the service followed by the path. The
    base is without a blank at its front and without a slash at its end. It has a scheme, and no blank at its end,
    just when the URL as it was checked is no bare scheme, and has no blank before its last slashes. -/
theorem url_of_valid {c : Config} (hvalid : c.defect? = none) {call : Call} {written : String}
    (hservice : c.services call.service = some written) :
    ∃ base, c.url call = .ok (base ++ call.path) ∧ BaseOf (trimBlanks written.toList) base.toList := by
  have hscheme := (defect?_eq_none_iff.mp hvalid).1 call.service written hservice
  refine ⟨bareUrl written, url_of_base (baseUrl?_of_services hservice), ?_⟩
  rw [bareUrl, String.toList_ofList]
  exact {
    slashes := exists_dropFinalSlashes _
    leading := fun ch hch => isBlank_of_mem_head?_trimBlanks (mem_head?_of_rdropWhile hch)
    ending := getLast?_dropFinalSlashes _
    scheme := hasHttpScheme_dropFinalSlashes hscheme
    trailing := trailing_dropFinalSlashes }

/-- The local development stack with another URL for one service. -/
def BaseOf.giving (service : Service) (written : String) : Config :=
  { initial with services := fun s => if s = service then some written else some s.localUrl }

def BaseOf.call : Call := .get .order "/orders/o-1"

open BaseOf in
theorem url_of_valid_written :
    let c := giving .order "\t https://orders.example/api// "
    (c.defect? = none ∧ c.services call.service = some "\t https://orders.example/api// ") ∧
      (∃ base, c.url call = .ok (base ++ call.path) ∧
        BaseOf (trimBlanks "\t https://orders.example/api// ".toList) base.toList) ∧
      c.url call = .ok "https://orders.example/api/orders/o-1" := by
  intro c
  have hvalid : c.defect? = none := by decide +kernel
  exact ⟨⟨hvalid, rfl⟩, url_of_valid hvalid rfl, by decide +kernel⟩

open BaseOf in
/-- The check passes a bare scheme, of which the base keeps no scheme, and a blank before the last slash, which comes to
    stand at the end of the base. -/
theorem base_lost :
    ((giving .order "http://").defect? = none ∧
      ∀ base, (giving .order "http://").url call = .ok (base ++ call.path) → hasHttpScheme base.toList = false) ∧
    (giving .order "http://h /").defect? = none ∧
      ∀ base, (giving .order "http://h /").url call = .ok (base ++ call.path) →
        ∃ ch ∈ base.toList.getLast?, isBlank ch = true := by
  refine ⟨⟨by decide +kernel, fun base h => ?_⟩, by decide +kernel, fun base h => ?_⟩
  · rw [base_eq_bareUrl rfl h]
    decide +kernel
  · have hlast : (bareUrl "http://h /").toList.getLast? = some ' ' := by decide +kernel
    rw [base_eq_bareUrl rfl h]
    exact ⟨' ', hlast, isBlank_space⟩

end Config
end TicketDesk
