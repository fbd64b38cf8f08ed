import Mathlib.Data.List.DropRight
import Mathlib.Data.Nat.Digits.Defs
import TicketDesk.Text.Blank
import TicketDesk.Text.Integer

/-! # Numerals

A numeral is an optional sign and one or more ASCII digits, and denotes a whole number. What is read as a whole number
are the numerals and nothing else, with blanks around them where these are trimmed. What is written for a number is its
canonical numeral: no plus sign, no zero before other digits, no minus sign before a zero. -/

namespace TicketDesk.Text

/-- One or more ASCII digits. -/
def IsDigits (ds : List Char) : Prop := ds ≠ [] ∧ ∀ c ∈ ds, c.isDigit = true

/-- The number that digits denote in the decimal system, the last digit counting least. -/
def digitSum (ds : List Char) : Nat := Nat.ofDigits 10 (ds.reverse.map fun c => c.toNat - '0'.toNat)

/-- A numeral and the whole number it denotes. -/
inductive Denotes : List Char → Int → Prop where
  | unsigned {ds : List Char} (h : IsDigits ds) : Denotes ds (digitSum ds)
  | plus {ds : List Char} (h : IsDigits ds) : Denotes ('+' :: ds) (digitSum ds)
  | minus {ds : List Char} (h : IsDigits ds) : Denotes ('-' :: ds) (-digitSum ds)

/-- A numeral as it is written: nothing can be left out of it. -/
inductive Canonical : List Char → Prop where
  | zero : Canonical ['0']
  | positive {d : Char} {ds : List Char} (h : IsDigits (d :: ds)) (hd : d ≠ '0') : Canonical (d :: ds)
  | negative {d : Char} {ds : List Char} (h : IsDigits (d :: ds)) (hd : d ≠ '0') : Canonical ('-' :: d :: ds)

/-- A text that denotes a whole number of 64 bits between blanks. -/
def Holds (text : String) (n : Int64) : Prop :=
  ∃ before numeral after, text.toList = before ++ numeral ++ after ∧ (∀ c ∈ before ++ after, isBlank c = true) ∧
    Denotes numeral n.toInt

/-! ### Digits -/

variable {cs ds : List Char}

theorem ofDigitChars_eq_digitSum (ds : List Char) : Nat.ofDigitChars 10 ds 0 = digitSum ds := by
  induction ds using List.reverseRecOn with
  | nil => rfl
  | append_singleton ds c ih =>
    rw [Nat.ofDigitChars_append, Nat.ofDigitChars_cons, Nat.ofDigitChars_nil, ih, digitSum, digitSum, List.reverse_append,
      List.reverse_singleton, List.singleton_append, List.map_cons, Nat.ofDigits_cons, Nat.add_comm]

theorem digits?_eq_some_iff {n : Nat} : digits? ds = some n ↔ IsDigits ds ∧ digitSum ds = n := by
  have hall : (ds ≠ [] ∧ ds.all Char.isDigit = true) ↔ IsDigits ds := and_congr_right' List.all_eq_true
  rw [digits?, ← ofDigitChars_eq_digitSum]
  split
  case isTrue h => simp [hall.mp h]
  case isFalse h => simp [mt hall.mpr h]

theorem isDigits_showNat (n : Nat) : IsDigits (showNat n) :=
  ⟨showNat_ne_nil n, fun _ hc => isDigit_of_mem_showNat hc⟩

theorem isDigits_zero : IsDigits ['0'] := ⟨List.cons_ne_nil _ _, List.forall_mem_singleton.mpr (by decide)⟩

theorem IsDigits.append_zeros (h : IsDigits ds) (k : Nat) : IsDigits (ds ++ List.replicate k '0') := by
  refine ⟨List.append_ne_nil_of_left_ne_nil h.1 _, List.forall_mem_append.mpr ⟨h.2, fun c hc => ?_⟩⟩
  rw [List.eq_of_mem_replicate hc]
  decide

theorem IsDigits.zeros_append (h : IsDigits ds) (k : Nat) : IsDigits (List.replicate k '0' ++ ds) := by
  refine ⟨List.append_ne_nil_of_right_ne_nil _ h.1, List.forall_mem_append.mpr ⟨fun c hc => ?_, h.2⟩⟩
  rw [List.eq_of_mem_replicate hc]
  decide

theorem head?_showNat_ne_zero {n : Nat} (h : 0 < n) : (showNat n).head? ≠ some '0' := by
  induction n using Nat.strongRecOn with
  | ind n ih =>
    by_cases hn : n < 10
    · have hdigit : ∀ m < 10, 0 < m → Nat.digitChar m ≠ '0' := by decide
      simpa [showNat, Nat.toDigits_of_lt_base hn] using hdigit n hn h
    · have hq := ih (n / 10) (by omega) (by omega)
      rw [showNat, Nat.toDigits_of_base_le (by decide) (by omega)]
      obtain ⟨c, cs, hcs⟩ := List.exists_cons_of_ne_nil (showNat_ne_nil (n / 10))
      rw [showNat] at hq hcs
      rw [hcs] at hq ⊢
      exact hq

/-! ### Signs -/

theorem IsDigits.head_ne {c : Char} (h : IsDigits (c :: cs)) : c ≠ '+' ∧ c ≠ '-' := by
  have hc := h.2 c List.mem_cons_self
  constructor <;> rintro rfl <;> exact absurd hc (by decide)

theorem int?_of_isDigits (h : IsDigits ds) : int? ds = (digits? ds).map Int.ofNat := by
  obtain ⟨c, cs, rfl⟩ := List.exists_cons_of_ne_nil h.1
  rw [int?]
  · exact fun _ heq => h.head_ne.1 (List.cons.inj heq).1
  · exact fun _ heq => h.head_ne.2 (List.cons.inj heq).1

theorem int?_eq_some_iff {n : Int} : int? cs = some n ↔ Denotes cs n := by
  constructor
  · intro h
    unfold int? at h
    split at h
    all_goals
      obtain ⟨k, hk, rfl⟩ := Option.map_eq_some_iff.mp h
      obtain ⟨hds, rfl⟩ := digits?_eq_some_iff.mp hk
    · exact .plus hds
    · exact .minus hds
    · exact .unsigned hds
  · intro h
    cases h with
    | unsigned h => rw [int?_of_isDigits h, digits?_eq_some_iff.mpr ⟨h, rfl⟩]; rfl
    | plus h => rw [int?, digits?_eq_some_iff.mpr ⟨h, rfl⟩]; rfl
    | minus h => rw [int?, digits?_eq_some_iff.mpr ⟨h, rfl⟩]; rfl

theorem denotes_showInt (n : Int) : Denotes (showInt n) n := int?_eq_some_iff.mp (int?_showInt n)

theorem canonical_showInt (n : Int) : Canonical (showInt n) := by
  have hlead {k : Nat} (hk : 0 < k) : ∃ d ds, showNat k = d :: ds ∧ IsDigits (d :: ds) ∧ d ≠ '0' := by
    obtain ⟨d, ds, hds⟩ := List.exists_cons_of_ne_nil (showNat_ne_nil k)
    refine ⟨d, ds, hds, hds ▸ isDigits_showNat k, ?_⟩
    rintro rfl
    exact head?_showNat_ne_zero hk (hds ▸ rfl)
  cases n with
  | ofNat k =>
    rcases Nat.eq_zero_or_pos k with rfl | hk
    · exact .zero
    · obtain ⟨d, ds, hds, hdigits, hd⟩ := hlead hk
      rw [showInt, hds]
      exact .positive hdigits hd
  | negSucc k =>
    obtain ⟨d, ds, hds, hdigits, hd⟩ := hlead (Nat.succ_pos k)
    rw [showInt, hds]
    exact .negative hdigits hd

/-! ### Words between blanks -/

theorem isBlank_of_isDigit {c : Char} (h : c.isDigit = true) : isBlank c = false := by
  simp only [Char.isDigit, Bool.and_eq_true, decide_eq_true_iff] at h
  obtain ⟨hlo, hhi⟩ := h
  have hlo : 48 ≤ c.toNat := hlo
  have hhi : c.toNat ≤ 57 := hhi
  simp [isBlank, blankRanges]
  omega

theorem IsDigits.not_blank (h : IsDigits ds) : ∀ c ∈ ds, isBlank c = false := fun c hc => isBlank_of_isDigit (h.2 c hc)

theorem Denotes.not_blank {n : Int} (h : Denotes cs n) : ∀ c ∈ cs, isBlank c = false := by
  cases h with
  | unsigned h => exact h.not_blank
  | plus h => exact List.forall_mem_cons.mpr ⟨by decide, h.not_blank⟩
  | minus h => exact List.forall_mem_cons.mpr ⟨by decide, h.not_blank⟩

theorem Denotes.ne_nil {n : Int} (h : Denotes cs n) : cs ≠ [] := by
  cases h with
  | unsigned h => exact h.1
  | plus h => exact List.cons_ne_nil _ _
  | minus h => exact List.cons_ne_nil _ _

theorem dropWhile_isBlank_append {before : List Char} (hblank : ∀ c ∈ before, isBlank c = true) (hne : cs ≠ [])
    (h : ∀ c ∈ cs, isBlank c = false) (after : List Char) :
    (before ++ (cs ++ after)).dropWhile isBlank = cs ++ after := by
  obtain ⟨c, rest, rfl⟩ := List.exists_cons_of_ne_nil hne
  have hc : ¬isBlank c = true := by simp [h c List.mem_cons_self]
  rw [List.dropWhile_append_of_pos hblank, List.cons_append, List.dropWhile_cons_of_neg hc]

/-- Trimming takes the blanks on both sides of what has none. -/
theorem trimBlanks_append {before after : List Char} (hblank : ∀ c ∈ before ++ after, isBlank c = true) (hne : cs ≠ [])
    (h : ∀ c ∈ cs, isBlank c = false) : trimBlanks (before ++ cs ++ after) = cs := by
  obtain ⟨hbefore, hafter⟩ := List.forall_mem_append.mp hblank
  have hback : (after.reverse ++ (cs.reverse ++ [])).dropWhile isBlank = cs.reverse ++ [] :=
    dropWhile_isBlank_append (fun c hc => hafter c (List.mem_reverse.mp hc)) (List.reverse_ne_nil_iff.mpr hne)
      (fun c hc => h c (List.mem_reverse.mp hc)) []
  rw [List.append_nil] at hback
  rw [trimBlanks, List.append_assoc, dropWhile_isBlank_append hbefore hne h, List.reverse_append, hback, List.reverse_reverse]

/-- Trimming takes nothing but blanks. -/
theorem exists_trimBlanks (cs : List Char) :
    ∃ before after, cs = before ++ trimBlanks cs ++ after ∧ ∀ c ∈ before ++ after, isBlank c = true := by
  have hrest : cs.dropWhile isBlank = trimBlanks cs ++ (cs.dropWhile isBlank).rtakeWhile isBlank :=
    List.rdropWhile_append_rtakeWhile.symm
  refine ⟨cs.takeWhile isBlank, (cs.dropWhile isBlank).rtakeWhile isBlank, ?_, ?_⟩
  · rw [List.append_assoc, ← hrest, List.takeWhile_append_dropWhile]
  · exact List.forall_mem_append.mpr ⟨fun c hc => List.mem_takeWhile_imp hc, fun c hc => List.mem_rtakeWhile_imp hc⟩

theorem trimBlanks_eq_nil_iff : trimBlanks cs = [] ↔ ∀ c ∈ cs, isBlank c = true := by
  constructor
  · intro h
    obtain ⟨before, after, hcs, hblank⟩ := exists_trimBlanks cs
    rw [h, List.append_nil] at hcs
    exact hcs ▸ hblank
  · intro h
    rw [trimBlanks, List.dropWhile_eq_nil_iff.mpr h]
    rfl

theorem int64?_eq_some_iff {n : Int64} : int64? cs = some n ↔ Denotes cs n.toInt := by
  have hin : -0x8000000000000000 ≤ n.toInt ∧ n.toInt < 0x8000000000000000 := ⟨n.le_toInt, n.toInt_lt⟩
  rw [int64?, ← int?_eq_some_iff, Option.bind_eq_some_iff]
  constructor
  · rintro ⟨k, hk, hn⟩
    split at hn
    case isTrue h =>
      obtain rfl := Option.some.inj hn
      rw [hk, Int64.toInt_ofInt_of_le h.1 h.2]
    case isFalse => cases hn
  · intro h
    exact ⟨n.toInt, h, by rw [if_pos hin, n.ofInt_toInt]⟩

/-- What is read as a word once its blanks are trimmed holds it. -/
theorem int64?_trimBlanks_eq_some_iff {text : String} {n : Int64} :
    int64? (trimBlanks text.toList) = some n ↔ Holds text n := by
  rw [int64?_eq_some_iff]
  constructor
  · intro h
    obtain ⟨before, after, hcs, hblank⟩ := exists_trimBlanks text.toList
    exact ⟨before, _, after, hcs, hblank, h⟩
  · rintro ⟨before, numeral, after, hcs, hblank, h⟩
    rw [hcs, trimBlanks_append hblank h.ne_nil h.not_blank]
    exact h

theorem holds_showInt (n : Int64) : Holds (String.ofList (showInt n.toInt)) n :=
  ⟨[], showInt n.toInt, [], by simp, by simp, denotes_showInt _⟩

end TicketDesk.Text
