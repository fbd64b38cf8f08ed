import TicketDesk.Proofs.Wire

/-! # Setting fields from texts

Whether a field takes a text, and what it shows then, is a matter of the field and the text alone (`Field.shown?`), and
drafts are told apart by what their fields show. So a field keeps its value when it is set from its own text, the later
of two texts counts, and two fields may be set in either order. -/

namespace TicketDesk

/-! ### What a field makes of a text -/

namespace Field

variable {f : Field} {text : String}

theorem shown?_text (h : f.isNumeric = false) : f.shown? text = some text := by
  rw [shown?, if_neg (by simp [h])]

theorem shown?_number (h : f.isNumeric = true) {n : Int64} (hn : Text.Holds text n) :
    f.shown? text = some (Drafts.showWord n) := by
  rw [shown?, if_pos h, Drafts.number_eq_ok_iff.mpr hn]
  rfl

/-- The texts that a field refuses: those without a whole number, for a field that holds one. -/
theorem shown?_eq_none_iff : f.shown? text = none ↔ f.isNumeric = true ∧ ¬∃ n, Text.Holds text n := by
  cases hnum : f.isNumeric with
  | false => simp [shown?_text hnum]
  | true =>
    by_cases h : ∃ n, Text.Holds text n
    · obtain ⟨n, hn⟩ := h
      simp only [shown?_number hnum hn, reduceCtorEq, true_and, false_iff, not_not]
      exact ⟨n, hn⟩
    · refine iff_of_true ?_ ⟨rfl, h⟩
      rw [shown?, if_pos hnum]
      cases hr : Drafts.number f text with
      | error x => rfl
      | ok n => exact absurd ⟨n, Drafts.number_eq_ok_iff.mp hr⟩ h

/-- A field takes the text that it shows, and shows it again. -/
theorem shown?_get (d : Drafts) (f : Field) : f.shown? (d.get f) = some (d.get f) := by
  cases f with
  | amountCents => exact shown?_number rfl (Text.holds_showInt _)
  | qty => exact shown?_number rfl (Text.holds_showInt _)
  | capacity => exact shown?_number rfl (Text.holds_showInt _)
  | _ => exact shown?_text rfl

end Field

/-! ### One field -/

namespace Drafts

variable {d e : Drafts} {f g : Field} {text : String}

/-- The drafts after a field is set from a text, and what comes of it. -/
def edited (d : Drafts) (f : Field) (text : String) : Drafts × Except Fault Unit := DraftEdit.apply d (.set [(f, text)])

/-- Drafts whose fields show the same are the same. -/
theorem ext_get (h : ∀ f, d.get f = e.get f) : d = e := by
  have htexts : (Field.all.map fun f => (f, d.get f)) = Field.all.map fun f => (f, e.get f) :=
    List.map_congr_left fun f _ => by rw [h f]
  exact congrArg Prod.fst ((d.setAll_get d).symm.trans ((congrArg d.setAll htexts).trans (d.setAll_get e)))

theorem edited_of_ok (h : d.set f text = .ok e) : d.edited f text = (e, .ok ()) := by
  simp [edited, DraftEdit.apply, setAll, h]

theorem edited_of_error {x : Fault} (h : d.set f text = .error x) : d.edited f text = (d, .error x) := by
  simp [edited, DraftEdit.apply, setAll, h]

/-- What refuses a text is that it is no whole number. -/
theorem eq_notWholeNumber_of_set {x : Fault} (h : d.set f text = .error x) : x = .notWholeNumber f.name text := by
  have hnumber {g : Field} {k : Int64 → Drafts} (h : (number g text).map k = .error x) :
      x = .notWholeNumber g.name text := by
    rw [number] at h
    split at h
    · cases h
    · exact (Except.error.inj h).symm
  cases f with
  | amountCents => exact hnumber h
  | qty => exact hnumber h
  | capacity => exact hnumber h
  | _ => cases h

theorem get_edited (d : Drafts) (f : Field) (text : String) (g : Field) :
    (d.edited f text).1.get g = if g = f then (f.shown? text).getD (d.get f) else d.get g := by
  cases hset : d.set f text with
  | error x =>
    rw [edited_of_error hset, shown?_eq_none hset]
    split
    · next h => rw [h]; rfl
    · rfl
  | ok e =>
    obtain ⟨hshown, hothers⟩ := get_of_set hset
    rw [edited_of_ok hset, hshown]
    split
    · next h => rw [h]; rfl
    · next h => exact hothers g h

theorem reply_edited (d : Drafts) (f : Field) (text : String) :
    (d.edited f text).2 = if (f.shown? text).isSome then .ok () else .error (.notWholeNumber f.name text) := by
  cases hset : d.set f text with
  | error x => rw [edited_of_error hset, shown?_eq_none hset, eq_notWholeNumber_of_set hset]; rfl
  | ok e => rw [edited_of_ok hset, (get_of_set hset).1]; rfl

theorem reply_edited_eq_error_iff {x : Fault} :
    (d.edited f text).2 = .error x ↔
      x = .notWholeNumber f.name text ∧ f.isNumeric = true ∧ ¬∃ n, Text.Holds text n := by
  rw [reply_edited, ← Field.shown?_eq_none_iff]
  cases f.shown? text with
  | none => simp [eq_comm]
  | some shown => simp

theorem edited_of_refused (h : f.shown? text = none) : (d.edited f text).1 = d := by
  refine ext_get fun g => ?_
  rw [get_edited, h, Option.getD_none]
  split
  · next hg => rw [hg]
  · rfl

/-! ### Laws -/

/-- What is to be said of setting a field of drafts from a text, and of setting it before or after another. -/
structure EditLaws (d : Drafts) (f : Field) (text : String) : Prop where
  /-- The text is taken, or nothing at all changes. -/
  whole : (d.edited f text).2 = .ok () ∨ (d.edited f text).1 = d
  /-- Only a number field refuses a text, and it refuses just those without a whole number of 64 bits. -/
  refused : ∀ x, (d.edited f text).2 = .error x ↔
    x = .notWholeNumber f.name text ∧ f.isNumeric = true ∧ ¬∃ n, Text.Holds text n
  shows : f.isNumeric = false → (d.edited f text).1.get f = text
  /-- A number is shown by its canonical numeral, however it was written. -/
  showsNumber : f.isNumeric = true → ∀ n, Text.Holds text n →
    Text.Denotes ((d.edited f text).1.get f).toList n.toInt ∧ Text.Canonical ((d.edited f text).1.get f).toList
  others : ∀ g, g ≠ f → (d.edited f text).1.value g = d.value g
  own : d.edited f (d.get f) = (d, .ok ())
  later : ∀ text', ((d.edited f text).1.edited f text').2 = .ok () →
    (d.edited f text).1.edited f text' = d.edited f text'
  commute : ∀ g, g ≠ f → ∀ text',
    ((d.edited f text).1.edited g text').1 = ((d.edited g text').1.edited f text).1 ∧
      ((d.edited f text).1.edited g text').2 = (d.edited g text').2

/-- Setting fields from texts obeys the laws, whatever the drafts, the field and the text. -/
theorem edits_lawful (d : Drafts) (f : Field) (text : String) : EditLaws d f text where
  whole := by
    cases h : f.shown? text with
    | none => exact Or.inr (edited_of_refused h)
    | some shown => exact Or.inl (by rw [reply_edited, h]; rfl)
  refused _ := reply_edited_eq_error_iff
  shows h := by rw [get_edited, if_pos rfl, Field.shown?_text h, Option.getD_some]
  showsNumber h n hn := by
    rw [get_edited, if_pos rfl, Field.shown?_number h hn, Option.getD_some, showWord, String.toList_ofList]
    exact ⟨Text.denotes_showInt _, Text.canonical_showInt _⟩
  others g hg := by rw [← get_eq_iff, get_edited, if_neg hg]
  own := by
    refine Prod.ext (ext_get fun g => ?_) ?_
    · rw [get_edited, Field.shown?_get, Option.getD_some]
      split
      · next hg => rw [hg]
      · rfl
    · rw [reply_edited, Field.shown?_get]
      rfl
  later text' htaken := by
    obtain ⟨shown, hshown⟩ : ∃ shown, f.shown? text' = some shown := by
      rw [reply_edited] at htaken
      exact Option.isSome_iff_exists.mp (by_contra fun h => by simp [h] at htaken)
    refine Prod.ext (ext_get fun g => ?_) (by rw [reply_edited, reply_edited])
    simp only [get_edited, hshown, Option.getD_some]
    split
    · rfl
    · rfl
  commute g hg text' := by
    refine ⟨ext_get fun field => ?_, by rw [reply_edited, reply_edited]⟩
    simp only [get_edited]
    by_cases hf : field = f
    · subst hf
      simp [hg.symm]
    · simp [hf, hg]

end Drafts

end TicketDesk
