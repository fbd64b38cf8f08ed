import TicketDesk.Proofs.Decimal.Shortest
import TicketDesk.Proofs.Json.Numeral

/-! # Binary floating point numbers as numerals

The text of a binary64 number is that of one numeral, which stands for the shortest decimal of the number
and always has a fraction or an exponent. So no two numbers share a numeral, and none shares one with a
whole number. -/

namespace TicketDesk

/-- The fraction a numeral stands for, without its sign. -/
def Json.Numeral.amount (n : Numeral) : ℚ :=
  Nat.ofDigitChars 10 (n.digits ++ n.fraction.getD []) 0 * 10 ^ (n.power - (n.fraction.getD []).length)

namespace Binary64

/-- The numeral of a decimal: positional where the first digit stands near the point. -/
def Decimal.numeral (negative : Bool) (d : Decimal) : Json.Numeral :=
  if d.exponent < -5 ∨ 15 < d.exponent then
    ⟨negative, d.digits.take 1, if d.digits.drop 1 = [] then none else some (d.digits.drop 1),
      some (d.exponent < 0, Text.showNat d.exponent.natAbs)⟩
  else if d.exponent < 0 then
    ⟨negative, ['0'], some (List.replicate (-d.exponent - 1).toNat '0' ++ d.digits), none⟩
  else if d.digits.length ≤ d.exponent + 1 then
    ⟨negative, d.digits ++ List.replicate (d.exponent + 1 - d.digits.length).toNat '0', some ['0'], none⟩
  else
    ⟨negative, d.digits.take (d.exponent + 1).toNat, some (d.digits.drop (d.exponent + 1).toNat), none⟩

/-- The numeral that the text of a number is. -/
def numeral (x : Binary64) : Json.Numeral :=
  if x.rank = 0 then ⟨x.negative, ['0'], some ['0'], none⟩ else x.shortest.numeral x.negative

theorem showReal_eq_text (x : Binary64) : Json.showReal x = x.numeral.text := by
  unfold Json.showReal numeral
  rcases Decidable.em (x.rank = 0) with hrank | hrank
  · simp only [if_pos hrank]
    rfl
  simp only [if_neg hrank, Decimal.numeral]
  generalize x.shortest = d
  rcases Decidable.em (d.exponent < -5 ∨ 15 < d.exponent) with hfar | hfar
  · simp only [if_pos hfar, Json.Numeral.text, List.append_assoc]
    congr 2
    rcases Decidable.em (d.digits.drop 1 = []) with htail | htail
    · by_cases hneg : d.exponent < 0 <;> simp [htail, hneg, Json.fractionText, Json.exponentText]
    · by_cases hneg : d.exponent < 0 <;> simp only [if_neg htail, hneg] <;> simp [Json.fractionText, Json.exponentText]
  simp only [if_neg hfar]
  rcases Decidable.em (d.exponent < 0) with hneg | hneg
  · simp [hneg, Json.Numeral.text, Json.fractionText, Json.exponentText]
  simp only [if_neg hneg]
  rcases Decidable.em (d.digits.length ≤ d.exponent + 1) with hlong | hlong
  · simp [hlong, Json.Numeral.text, Json.fractionText, Json.exponentText]
  · simp [hlong, Json.Numeral.text, Json.fractionText, Json.exponentText]

/-! ### The numeral of a decimal -/

namespace Decimal

variable {d : Decimal} (h : d.Normal) (negative : Bool)

theorem negative_numeral (d : Decimal) : (d.numeral negative).negative = negative := by
  unfold numeral
  split <;> [rfl; skip]
  split <;> [rfl; skip]
  split <;> rfl

/-- A decimal is never written as a whole number. -/
theorem numeral_fractional (d : Decimal) : (d.numeral negative).fraction ≠ none ∨ (d.numeral negative).exponent ≠ none := by
  unfold numeral
  split <;> [exact .inr nofun; skip]
  split <;> [exact .inl nofun; skip]
  split <;> exact .inl nofun

include h

theorem head_take {n : Nat} (hn : n ≠ 0) : (d.digits.take n).head? ≠ some '0' := by
  rw [List.head?_take, if_neg hn]
  exact h.head

theorem isDigits_take {n : Nat} (hn : n ≠ 0) : Text.IsDigits (d.digits.take n) :=
  ⟨by simpa [hn] using h.digits.1, fun c hc => h.digits.2 c (List.mem_of_mem_take hc)⟩

theorem isDigits_drop {n : Nat} (hn : d.digits.drop n ≠ []) : Text.IsDigits (d.digits.drop n) :=
  ⟨hn, fun c hc => h.digits.2 c (List.mem_of_mem_drop hc)⟩

theorem wellFormed_numeral : (d.numeral negative).WellFormed := by
  unfold numeral
  split
  case isTrue =>
    refine ⟨isDigits_take h (by decide), fun hzero => absurd hzero (head_take h (by decide)), ?_, ?_⟩
    · intro ds hds
      split at hds <;> cases hds
      exact isDigits_drop h ‹_›
    · intro sign ds hds
      cases hds
      exact Text.isDigits_showNat _
  case isFalse =>
  split
  case isTrue =>
    refine ⟨Text.isDigits_zero, fun _ => rfl, ?_, nofun⟩
    rintro ds ⟨⟩
    exact h.digits.zeros_append _
  case isFalse =>
  split
  case isTrue =>
    refine ⟨h.digits.append_zeros _, fun hzero => absurd hzero ?_, ?_, nofun⟩
    · rw [List.head?_append_of_ne_nil _ h.digits.1]
      exact h.head
    · rintro ds ⟨⟩
      exact Text.isDigits_zero
  case isFalse =>
    refine ⟨isDigits_take h (by omega), fun hzero => absurd hzero (head_take h (by omega)), ?_, nofun⟩
    rintro ds ⟨⟩
    exact isDigits_drop h (by simp; omega)

omit h in
theorem amount_eq_of_digits {n : Json.Numeral} (k : Nat)
    (hdigits : Nat.ofDigitChars 10 (n.digits ++ n.fraction.getD []) 0 = 10 ^ k * Nat.ofDigitChars 10 d.digits 0)
    (hplace : n.power - (n.fraction.getD []).length + k = d.exponent + 1 - d.digits.length) : n.amount = d.amount := by
  rw [Json.Numeral.amount, Decimal.amount, hdigits, ← hplace, zpow_add₀ (by norm_num), zpow_natCast]
  push_cast
  ring

/-- The numeral of a decimal stands for the same fraction. -/
theorem amount_numeral : (d.numeral negative).amount = d.amount := by
  have hlength := List.length_pos_of_ne_nil h.digits.1
  unfold numeral
  split
  case isTrue =>
    have htail : (if d.digits.drop 1 = [] then none else some (d.digits.drop 1)).getD [] = d.digits.drop 1 := by
      split <;> simp_all
    have hpower : Nat.ofDigitChars 10 (Text.showNat d.exponent.natAbs) 0 = d.exponent.natAbs :=
      Nat.ofDigitChars_toDigits (by decide) (by decide)
    refine amount_eq_of_digits 0 ?_ ?_
    · rw [htail, List.take_append_drop, Nat.pow_zero, Nat.one_mul]
    · rw [htail, List.length_drop]
      simp only [Json.Numeral.power, hpower, decide_eq_true_eq]
      split <;> omega
  case isFalse =>
  split
  case isTrue =>
    refine amount_eq_of_digits 0 ?_ ?_
    · simp [Nat.ofDigitChars_cons, Nat.ofDigitChars_append]
    · simp [Json.Numeral.power]
      omega
  case isFalse =>
  split
  case isTrue =>
    refine amount_eq_of_digits ((d.exponent + 1 - d.digits.length).toNat + 1) ?_ ?_
    · rw [Option.getD_some, Nat.ofDigitChars_append, Nat.ofDigitChars_append, Nat.ofDigitChars_replicate_zero, Nat.pow_succ,
        Nat.mul_comm _ 10, Nat.mul_assoc]
      rfl
    · simp [Json.Numeral.power]
      omega
  case isFalse =>
    refine amount_eq_of_digits 0 ?_ ?_
    · rw [Option.getD_some, List.take_append_drop, Nat.pow_zero, Nat.one_mul]
    · simp [Json.Numeral.power]
      omega

end Decimal

/-! ### The numeral of a number -/

theorem wellFormed_numeral (x : Binary64) : x.numeral.WellFormed := by
  unfold numeral
  split
  case isTrue =>
    refine ⟨Text.isDigits_zero, fun _ => rfl, ?_, nofun⟩
    rintro ds ⟨⟩
    exact Text.isDigits_zero
  case isFalse h => exact Decimal.wellFormed_numeral (normal_shortest h) _

theorem negative_numeral (x : Binary64) : x.numeral.negative = x.negative := by
  unfold numeral
  split <;> [rfl; exact Decimal.negative_numeral _ _]

theorem numeral_fractional (x : Binary64) : x.numeral.fraction ≠ none ∨ x.numeral.exponent ≠ none := by
  unfold numeral
  split <;> [exact .inl nofun; exact Decimal.numeral_fractional _ _]

theorem admits_numeral (x : Binary64) : x.Admits x.numeral.amount := by
  unfold numeral
  split
  case isTrue h =>
    have hzero : (⟨x.negative, ['0'], some ['0'], none⟩ : Json.Numeral).amount = 0 := by
      simp [Json.Numeral.amount, Nat.ofDigitChars_cons]
    rw [hzero]
    exact admits_zero h
  case isFalse h =>
    rw [Decimal.amount_numeral (normal_shortest h)]
    exact admits_shortest h

/-- Different numbers are written as different numerals. -/
theorem numeral_injective : Function.Injective numeral := by
  intro x y h
  have hrank : x.rank = y.rank := rank_eq_of_admits x.admits_numeral (h ▸ y.admits_numeral)
  have hsign : x.negative = y.negative := by rw [← negative_numeral, h, negative_numeral]
  obtain ⟨_, _, _⟩ := x
  cases y
  simp_all

theorem isReal_numeral (x : Binary64) : x.numeral.isReal = true := by
  rcases x.numeral_fractional with h | h <;> simp [Json.Numeral.isReal, Option.isSome_iff_ne_none.mpr h]

theorem numeral_ne_whole (x : Binary64) (w : Json.Whole) : x.numeral ≠ w.numeral := by
  intro h
  rcases x.numeral_fractional with hfraction | hexponent
  · exact hfraction (by rw [h]; rfl)
  · exact hexponent (by rw [h]; rfl)

end Binary64

end TicketDesk
