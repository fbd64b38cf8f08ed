import TicketDesk.Json.Numeral
import TicketDesk.Proofs.Text.Integer

/-! # Numerals read back

The text of a numeral is its parts one after another, and it is read as that numeral again. A numeral is
read as far as it goes, so what follows it must not continue it. The decimal text of a whole number is a
numeral without fraction and exponent, and it denotes that number. -/

namespace TicketDesk.Json

open Text (IsDigits)

/-! ### The text of a numeral -/

def fractionText : Option (List Char) → List Char
  | none => []
  | some ds => '.' :: ds

def exponentText : Option (Bool × List Char) → List Char
  | none => []
  | some (negative, ds) => 'e' :: (if negative then '-' else '+') :: ds

def Numeral.text (n : Numeral) : List Char :=
  (if n.negative then ['-'] else []) ++ (n.digits ++ (fractionText n.fraction ++ exponentText n.exponent))

/-- Whether each part of a numeral has digits, and no zero stands before the digits of the first. -/
structure Numeral.WellFormed (n : Numeral) : Prop where
  digits : IsDigits n.digits
  head : n.digits.head? = some '0' → n.digits.length = 1
  fraction : ∀ ds, n.fraction = some ds → IsDigits ds
  exponent : ∀ negative ds, n.exponent = some (negative, ds) → IsDigits ds

/-- A text that does not go on with a numeral that ends before it. -/
def EndsNumeral (rest : List Char) : Prop :=
  ∀ c, rest.head? = some c → c.isDigit = false ∧ c ≠ '.' ∧ c ≠ 'e' ∧ c ≠ 'E'

theorem EndsNumeral.nil : EndsNumeral [] := fun _ h => by cases h

theorem EndsNumeral.cons {c : Char} {rest : List Char} (hd : c.isDigit = false) (hdot : c ≠ '.') (he : c ≠ 'e')
    (hE : c ≠ 'E') : EndsNumeral (c :: rest) := fun _ h => by
  cases h
  exact ⟨hd, hdot, he, hE⟩

theorem digitRun_append {ds rest : List Char} (hd : ∀ c ∈ ds, c.isDigit = true)
    (hr : ∀ c, rest.head? = some c → c.isDigit = false) : digitRun (ds ++ rest) = (ds, rest) := by
  have hrest : rest.takeWhile Char.isDigit = [] ∧ rest.dropWhile Char.isDigit = rest := by
    cases rest with
    | nil => exact ⟨rfl, rfl⟩
    | cons c cs => simp [hr c rfl]
  rw [digitRun, List.takeWhile_append_of_pos hd, List.dropWhile_append_of_pos hd, hrest.1, hrest.2, List.append_nil]

section Rest

variable {rest : List Char} (hr : EndsNumeral rest)
include hr

theorem head_exponentText_append (exponent : Option (Bool × List Char)) :
    ∀ c, (exponentText exponent ++ rest).head? = some c → c.isDigit = false ∧ c ≠ '.' := by
  intro c hc
  cases exponent with
  | none => exact ⟨(hr c hc).1, (hr c hc).2.1⟩
  | some e =>
    cases hc
    decide

theorem head_fractionText_append (fraction : Option (List Char)) (exponent : Option (Bool × List Char)) :
    ∀ c, (fractionText fraction ++ (exponentText exponent ++ rest)).head? = some c → c.isDigit = false := by
  intro c hc
  cases fraction with
  | none => exact (head_exponentText_append hr exponent c hc).1
  | some ds =>
    cases hc
    decide

theorem fraction?_fractionText {fraction : Option (List Char)} (h : ∀ ds, fraction = some ds → IsDigits ds)
    (exponent : Option (Bool × List Char)) :
    fraction? (fractionText fraction ++ (exponentText exponent ++ rest)) =
      some (fraction, exponentText exponent ++ rest) := by
  have hhead := head_exponentText_append hr exponent
  generalize exponentText exponent ++ rest = after at hhead ⊢
  cases fraction with
  | none =>
    rw [fractionText, List.nil_append]
    unfold fraction?
    split
    · exact absurd rfl (hhead _ rfl).2
    · rfl
  | some ds =>
    have hds := h ds rfl
    simp [fractionText, fraction?, digitRun_append hds.2 fun c hc => (hhead c hc).1, hds.1]

theorem exponent?_exponentText {exponent : Option (Bool × List Char)}
    (h : ∀ negative ds, exponent = some (negative, ds) → IsDigits ds) :
    exponent? (exponentText exponent ++ rest) = some (exponent, rest) := by
  cases exponent with
  | none =>
    rw [exponentText, List.nil_append]
    unfold exponent?
    split
    · exact absurd rfl (hr _ rfl).2.2.1
    · exact absurd rfl (hr _ rfl).2.2.2
    · rfl
  | some e =>
    obtain ⟨negative, ds⟩ := e
    have hds := h negative ds rfl
    have hrun := digitRun_append hds.2 fun c hc => (hr c hc).1
    cases negative <;> simp [exponentText, exponent?, signedExponent?, exponentDigits?, hrun, hds.1]

theorem unsigned?_text {n : Numeral} (h : n.WellFormed) :
    unsigned? n.negative (n.digits ++ (fractionText n.fraction ++ exponentText n.exponent) ++ rest) = some (n, rest) := by
  have hlead : ¬(n.digits = [] ∨ n.digits.head? = some '0' ∧ 1 < n.digits.length) := by
    rintro (hnil | ⟨hzero, hlong⟩)
    · exact h.digits.1 hnil
    · exact absurd (h.head hzero) (by omega)
  rw [List.append_assoc, List.append_assoc]
  simp [unsigned?, digitRun_append h.digits.2 (head_fractionText_append hr _ _), hlead,
    fraction?_fractionText hr h.fraction, exponent?_exponentText hr h.exponent]

/-- A well-formed numeral is read back from its text. -/
theorem numeral?_text {n : Numeral} (h : n.WellFormed) : numeral? (n.text ++ rest) = some (n, rest) := by
  have hread := unsigned?_text hr h
  obtain ⟨c, cs, hcs⟩ := List.exists_cons_of_ne_nil h.digits.1
  have hc : c ≠ '-' := (IsDigits.head_ne (hcs ▸ h.digits)).2
  rw [Numeral.text]
  split
  case isTrue hneg =>
    rw [hneg] at hread
    exact hread
  case isFalse hpos =>
    rw [Bool.not_eq_true] at hpos
    rw [hpos] at hread
    rw [List.nil_append]
    unfold numeral?
    split
    · rename_i heq
      rw [hcs] at heq
      exact absurd (List.cons.inj heq).1 hc
    · exact hread

end Rest

theorem Numeral.WellFormed.text_eq_cons {n : Numeral} (h : n.WellFormed) :
    ∃ c cs, n.text = c :: cs ∧ (c.isDigit = true ∨ c = '-') := by
  obtain ⟨c, cs, hcs⟩ := List.exists_cons_of_ne_nil h.digits.1
  rw [text]
  split
  · exact ⟨'-', _, rfl, .inr rfl⟩
  · exact ⟨c, _, by rw [hcs]; rfl, .inl (h.digits.2 c (hcs ▸ List.mem_cons_self))⟩

theorem Numeral.eq_real_of_real? {n : Numeral} {v : Json} (h : n.real? = some v) : ∃ x, v = .real x := by
  obtain ⟨x, -, rfl⟩ := Option.map_eq_some_iff.mp h
  exact ⟨_, rfl⟩

theorem Numeral.value?_of_isReal {n : Numeral} (h : n.isReal = true) : n.value? = n.real? := if_pos h

theorem Numeral.value?_cases {n : Numeral} {v : Json} (h : n.value? = some v) :
    (∃ w, v = .whole w) ∨ ∃ x, v = .real x := by
  rw [value?] at h
  split at h
  · exact .inr (eq_real_of_real? h)
  · split at h
    · next w _ => exact .inl ⟨w, (Option.some.inj h).symm⟩
    · exact .inr (eq_real_of_real? h)

/-! ### Whole numbers -/

def Whole.numeral (w : Whole) : Numeral := ⟨w.val < 0, Text.showNat w.val.natAbs, none, none⟩

theorem Whole.text_numeral (w : Whole) : w.numeral.text = Text.showInt w.val := by
  obtain ⟨n, hlow, hhigh⟩ := w
  cases n with
  | ofNat n => simp [numeral, Numeral.text, Text.showInt, fractionText, exponentText]
  | negSucc n => simp [numeral, Numeral.text, Text.showInt, fractionText, exponentText, Int.negSucc_lt_zero]

theorem Whole.wellFormed_numeral (w : Whole) : w.numeral.WellFormed where
  digits := Text.isDigits_showNat _
  head hzero := by
    rcases Nat.eq_zero_or_pos w.val.natAbs with h | hpos
    · simp [numeral, h, Text.showNat]
    · exact absurd hzero (Text.head?_showNat_ne_zero hpos)
  fraction _ h := by cases h
  exponent _ _ h := by cases h

theorem Whole.ofInt?_val (w : Whole) : Whole.ofInt? w.val = some w := dif_pos ⟨w.lower, w.upper⟩

theorem Whole.integer_numeral (w : Whole) : w.numeral.integer = w.val := by
  have hdigits : Nat.ofDigitChars 10 (Text.showNat w.val.natAbs) 0 = w.val.natAbs :=
    Nat.ofDigitChars_toDigits (by decide) (by decide)
  simp only [Numeral.integer, numeral, hdigits, decide_eq_true_eq]
  split <;> omega

theorem Whole.numeral_injective : Function.Injective Whole.numeral := by
  intro v w h
  have hval : v.val = w.val := by rw [← v.integer_numeral, h, w.integer_numeral]
  cases v
  cases w
  simp_all

theorem Whole.isReal_numeral (w : Whole) : w.numeral.isReal = false := by
  rw [Numeral.isReal, w.integer_numeral]
  simp only [numeral, Option.isSome_none, Bool.or_self, Bool.false_or, Bool.and_eq_false_iff, decide_eq_false_iff_not,
    beq_eq_false_iff_ne]
  omega

theorem Whole.value?_numeral (w : Whole) : w.numeral.value? = some (.whole w) := by
  simp [Numeral.value?, w.isReal_numeral, w.integer_numeral, w.ofInt?_val]

end TicketDesk.Json
