import TicketDesk.Proofs.Text.Integer
import TicketDesk.Store

/-! # Fields set from what they show

A field that is set from its own text keeps its value, so setting every field from the texts of other
drafts gives those drafts. Whatever is to become of the drafts, some edit does it. -/

namespace TicketDesk

/-! ### Fields -/

/-- What a field shows once it is set from a text, if the text is taken. -/
def Field.shown? (f : Field) (text : String) : Option String :=
  if f.isNumeric then (Drafts.number f text).toOption.map Drafts.showWord else some text

namespace Drafts

theorem number_eq_ok_iff {field : Field} {text : String} {n : Int64} :
    number field text = .ok n ↔ Text.Holds text n := by
  rw [← Text.int64?_trimBlanks_eq_some_iff, number]
  split <;> simp_all

theorem number_showWord (field : Field) (n : Int64) : number field (showWord n) = .ok n :=
  number_eq_ok_iff.mpr (Text.holds_showInt n)

/-- Setting every field from the text it has in other drafts gives the other drafts. -/
theorem setAll_get (d e : Drafts) : d.setAll (Field.all.map fun f => (f, e.get f)) = (e, .ok ()) := by
  simp [Field.all, get, setAll, set, number_showWord, Except.map]

/-- Setting a field leaves the others as they are. -/
theorem get_of_set {d e : Drafts} {f : Field} {text : String} (h : d.set f text = .ok e) :
    f.shown? text = some (e.get f) ∧ ∀ g, g ≠ f → e.get g = d.get g := by
  rw [Field.shown?]
  cases f
  case amountCents | qty | capacity =>
    rw [set] at h
    cases hn : number _ text with
    | error x =>
      rw [hn] at h
      cases h
    | ok n =>
      rw [hn] at h
      cases h
      refine ⟨rfl, fun g hg => ?_⟩
      cases g <;> trivial
  all_goals
    cases h
    refine ⟨rfl, fun g hg => ?_⟩
    cases g <;> trivial

theorem shown?_eq_none {d : Drafts} {f : Field} {text : String} {x : Fault} (h : d.set f text = .error x) :
    f.shown? text = none := by
  rw [Field.shown?]
  cases f
  case amountCents | qty | capacity =>
    rw [set] at h
    cases hn : number _ text with
    | error x => rfl
    | ok n =>
      rw [hn] at h
      cases h
  all_goals cases h

end Drafts

end TicketDesk
