import Mathlib.Algebra.Order.Field.Rat
import Mathlib.Data.List.DropRight
import Mathlib.Tactic.FieldSimp
import Mathlib.Tactic.Linarith
import Mathlib.Tactic.LinearCombination
import Mathlib.Tactic.Positivity
import Mathlib.Tactic.Ring
import TicketDesk.Decimal.Shortest
import TicketDesk.Proofs.Text.Integer

/-! # Shortest decimals tell numbers apart

The reals that round to a binary64 number form an interval, and the intervals of different numbers have
no point in common: where two of them touch, one of the two ranks is odd and leaves the end out. The
shortest decimal of a number lies in its interval, so it is the decimal of no other magnitude. -/

namespace TicketDesk.Binary64

variable {x y : Binary64} {q : ℚ}

/-! ### The interval of a number -/

/-- How many quarters of the smallest binary place make one: 2^1076. -/
@[irreducible]
def perOne : ℚ := 2 ^ 1076

theorem perOne_pos : 0 < perOne := by
  unfold perOne
  exact pow_pos (by norm_num) _

/-- The lower end of the interval of reals that round to a number, counted in quarters of the smallest
    binary place. -/
def lowerEnd (x : Binary64) : Nat := x.quarters.1 * 2 ^ x.scale

/-- The upper end of that interval. -/
def upperEnd (x : Binary64) : Nat := x.quarters.2.2 * 2 ^ x.scale

/-- Whether a magnitude lies in the interval of a number. The ends belong to it when the significand is even. -/
structure Admits (x : Binary64) (q : ℚ) : Prop where
  lower : (x.lowerEnd : ℚ) ≤ q * perOne
  upper : q * perOne ≤ x.upperEnd
  odd : x.significand % 2 = 1 → (x.lowerEnd : ℚ) ≠ q * perOne ∧ q * perOne ≠ x.upperEnd

theorem significand_mod_two (x : Binary64) : x.significand % 2 = x.rank % 2 := by
  unfold significand perUnit
  split <;> omega

theorem significand_lt (x : Binary64) : x.significand < 2 * perUnit := by
  unfold significand perUnit
  split <;> omega

theorem significand_pos (h : x.rank ≠ 0) : 0 < x.significand := by
  unfold significand perUnit
  split <;> omega

/-- The next number has the next significand, or the least one at the next scale. -/
theorem next_cases (h : y.rank = x.rank + 1) :
    (y.scale = x.scale ∧ y.significand = x.significand + 1 ∧ ¬(y.significand = perUnit ∧ 0 < y.scale)) ∨
      (y.scale = x.scale + 1 ∧ y.significand = perUnit ∧ x.significand + 1 = 2 * perUnit) := by
  unfold significand scale perUnit
  rw [h]
  split <;> split <;> omega

theorem upperEnd_eq_lowerEnd (h : y.rank = x.rank + 1) : x.upperEnd = y.lowerEnd := by
  rcases next_cases h with ⟨hscale, hsig, hplain⟩ | ⟨hscale, hsig, hfull⟩
  · have hlower : y.quarters.1 = 4 * y.significand - 2 := if_neg hplain
    rw [upperEnd, lowerEnd, hlower, hscale, hsig]
    rfl
  · have hlower : y.quarters.1 = 4 * y.significand - 1 := if_pos ⟨hsig, by omega⟩
    have hupper : x.quarters.2.2 = 2 * (4 * y.significand - 1) := by
      show 4 * x.significand + 2 = _
      omega
    rw [upperEnd, lowerEnd, hlower, hupper, hscale, Nat.pow_succ, Nat.mul_comm (2 ^ _) 2, ← Nat.mul_assoc,
      Nat.mul_comm 2]

theorem lowerEnd_lt_upperEnd (x : Binary64) : x.lowerEnd < x.upperEnd := by
  refine Nat.mul_lt_mul_of_pos_right ?_ (by positivity)
  simp only [quarters]
  split <;> omega

/-- The interval of a larger number lies above, and only that of the next number may touch it. -/
theorem upperEnd_le_lowerEnd (h : x.rank < y.rank) :
    x.upperEnd ≤ y.lowerEnd ∧ (x.upperEnd = y.lowerEnd → y.rank = x.rank + 1) := by
  obtain ⟨k, hk⟩ := Nat.exists_eq_add_of_lt h
  induction k generalizing y with
  | zero => exact ⟨(upperEnd_eq_lowerEnd hk).le, fun _ => hk⟩
  | succ k ih =>
    let z : Binary64 := ⟨false, x.rank + k + 1, by have := y.finite; omega⟩
    have hz := (ih (y := z) (by simp only [z]; omega) rfl).1
    have hlt := z.lowerEnd_lt_upperEnd
    have hy : z.upperEnd = y.lowerEnd := upperEnd_eq_lowerEnd (by simp only [z]; omega)
    exact ⟨by omega, fun _ => by omega⟩

theorem not_admits_of_rank_lt (h : x.rank < y.rank) (hx : x.Admits q) : ¬y.Admits q := by
  intro hy
  obtain ⟨hle, htouch⟩ := upperEnd_le_lowerEnd h
  have heq : x.upperEnd = y.lowerEnd := Nat.le_antisymm hle (by exact_mod_cast hy.lower.trans hx.upper)
  have hq : q * perOne = x.upperEnd := le_antisymm hx.upper (by rw [heq]; exact hy.lower)
  have hnext := htouch heq
  have hparity := x.significand_mod_two
  have hparity' := y.significand_mod_two
  -- Of two neighbouring significands one is odd, and its interval leaves the common end out.
  rcases Nat.mod_two_eq_zero_or_one x.significand with heven | hodd
  · exact (hy.odd (by omega)).1 (by rw [hq, heq])
  · exact (hx.odd hodd).2 hq

theorem rank_eq_of_admits (hx : x.Admits q) (hy : y.Admits q) : x.rank = y.rank := by
  rcases Nat.lt_trichotomy x.rank y.rank with h | h | h
  · exact absurd hy (not_admits_of_rank_lt h hx)
  · exact h
  · exact absurd hx (not_admits_of_rank_lt h hy)

theorem pos_of_admits (hx : x.rank ≠ 0) (h : x.Admits q) : 0 < q := by
  have hsig := significand_pos hx
  have hlower : 0 < x.lowerEnd := by
    refine Nat.mul_pos ?_ (by positivity)
    simp only [quarters]
    split <;> omega
  have hq : 0 < q * perOne := lt_of_lt_of_le (by exact_mod_cast hlower) h.lower
  exact pos_of_mul_pos_left hq perOne_pos.le

theorem admits_zero (h : x.rank = 0) : x.Admits 0 := by
  have hsig : x.significand = 0 := by simp [significand, h, perUnit]
  refine ⟨?_, ?_, fun hodd => by simp [hsig] at hodd⟩
  · simp [lowerEnd, quarters, hsig]
  · rw [Rat.zero_mul]
    exact Nat.cast_nonneg _

/-! ### Multiples of a power of ten -/

/-- A quarter of the last binary place and `10 ^ place` stand to each other as these two numbers. -/
def gridQuarter (x : Binary64) (place : Int) : Nat :=
  Nat.pow 2 ((x.scale : Int) - 1076).toNat * Nat.pow 10 (-place).toNat

def gridStep (x : Binary64) (place : Int) : Nat :=
  Nat.pow 2 (-((x.scale : Int) - 1076)).toNat * Nat.pow 10 place.toNat

section Grid

variable {place : Int} {c : Nat}

theorem gridQuarter_pos (x : Binary64) (place : Int) : 0 < x.gridQuarter place :=
  Nat.mul_pos (Nat.pow_pos (by decide)) (Nat.pow_pos (by decide))

theorem gridStep_pos (x : Binary64) (place : Int) : 0 < x.gridStep place :=
  Nat.mul_pos (Nat.pow_pos (by decide)) (Nat.pow_pos (by decide))

theorem pow_toNat_mul_zpow {r : ℚ} (hr : r ≠ 0) (n : Int) : r ^ (-n).toNat * r ^ n = r ^ n.toNat := by
  rcases Int.le_total 0 n with h | h
  · obtain ⟨k, rfl⟩ := Int.eq_ofNat_of_zero_le h
    simp
  · obtain ⟨k, hk⟩ := Int.eq_ofNat_of_zero_le (Int.neg_nonneg.mpr h)
    obtain rfl : n = -(k : Int) := by omega
    simp [hr]

theorem gridQuarter_mul (x : Binary64) (place : Int) :
    (x.gridQuarter place : ℚ) * (10 ^ place * perOne) = x.gridStep place * 2 ^ x.scale := by
  have hten := pow_toNat_mul_zpow (r := 10) (by norm_num) place
  have htwo : (2 : ℚ) ^ ((x.scale : Int) - 1076).toNat * perOne =
      2 ^ (-((x.scale : Int) - 1076)).toNat * 2 ^ x.scale := by
    rw [perOne, ← pow_add, ← pow_add]
    exact congrArg _ (by omega)
  simp only [gridQuarter, gridStep, Nat.pow_eq, Nat.cast_mul, Nat.cast_pow, Nat.cast_ofNat]
  calc _ = (2 ^ ((x.scale : Int) - 1076).toNat * perOne) * ((10 : ℚ) ^ (-place).toNat * 10 ^ place) := by ring
    _ = _ := by rw [htwo, hten]; ring

section Units

variable (x place)

theorem perOne_mul_zpow_pos : (0 : ℚ) < 10 ^ place * perOne :=
  mul_pos (zpow_pos (by norm_num) _) perOne_pos

theorem cast_mul_gridQuarter (k : Nat) :
    ((k * x.gridQuarter place : Nat) : ℚ) * (10 ^ place * perOne) = x.gridStep place * ((k * 2 ^ x.scale : Nat) : ℚ) := by
  push_cast
  linear_combination (k : ℚ) * x.gridQuarter_mul place

theorem cast_mul_gridStep (c : Nat) :
    ((c * x.gridStep place : Nat) : ℚ) * (10 ^ place * perOne) = x.gridStep place * (c * 10 ^ place * perOne) := by
  push_cast
  ring

end Units

/-- So many quarters are compared with a multiple of `10 ^ place` in whole numbers. -/
theorem mul_gridQuarter_le_iff {k : Nat} :
    k * x.gridQuarter place ≤ c * x.gridStep place ↔ ((k * 2 ^ x.scale : Nat) : ℚ) ≤ c * 10 ^ place * perOne := by
  have hstep : (0 : ℚ) < x.gridStep place := Nat.cast_pos.mpr (x.gridStep_pos place)
  rw [← @Nat.cast_le ℚ, ← mul_le_mul_iff_of_pos_right (perOne_mul_zpow_pos place), cast_mul_gridQuarter,
    cast_mul_gridStep, mul_le_mul_iff_of_pos_left hstep]

theorem mul_gridStep_le_iff {k : Nat} :
    c * x.gridStep place ≤ k * x.gridQuarter place ↔ c * 10 ^ place * perOne ≤ ((k * 2 ^ x.scale : Nat) : ℚ) := by
  have hstep : (0 : ℚ) < x.gridStep place := Nat.cast_pos.mpr (x.gridStep_pos place)
  rw [← @Nat.cast_le ℚ, ← mul_le_mul_iff_of_pos_right (perOne_mul_zpow_pos place), cast_mul_gridQuarter,
    cast_mul_gridStep, mul_le_mul_iff_of_pos_left hstep]

/-- The last multiple of `10 ^ place` that is not above the number. -/
def gridFloor (x : Binary64) (place : Int) : Nat :=
  x.quarters.2.1 * x.gridQuarter place / x.gridStep place

/-- What a comparison with an end of the interval means: the ends belong to it when the significand is even. -/
def Within (x : Binary64) (a b : Nat) : Prop := if x.significand % 2 = 0 then a ≤ b else a < b

def FitsBelow (x : Binary64) (place : Int) (c : Nat) : Prop :=
  x.Within (x.quarters.1 * x.gridQuarter place) (c * x.gridStep place)

def FitsAbove (x : Binary64) (place : Int) (c : Nat) : Prop :=
  x.Within (c * x.gridStep place) (x.quarters.2.2 * x.gridQuarter place)

def BelowIsNearer (x : Binary64) (place : Int) : Prop :=
  let r := x.quarters.2.1 * x.gridQuarter place % x.gridStep place
  2 * r < x.gridStep place ∨ (2 * r = x.gridStep place ∧ x.gridFloor place % 2 = 0)

instance {a b : Nat} : Decidable (x.Within a b) := 
  inferInstanceAs (Decidable (if x.significand % 2 = 0 then _ else _))

instance : Decidable (x.FitsBelow place c) := inferInstanceAs (Decidable (x.Within _ _))

instance : Decidable (x.FitsAbove place c) := inferInstanceAs (Decidable (x.Within _ _))

instance : Decidable (x.BelowIsNearer place) := inferInstanceAs (Decidable (_ ∨ _))

theorem onGrid?_eq (x : Binary64) (place : Int) :
    x.onGrid? place =
      let c := x.gridFloor place
      if x.FitsBelow place c then
        if x.FitsAbove place (c + 1) then
          if x.BelowIsNearer place then some c else some (c + 1)
        else some c
      else if x.FitsAbove place (c + 1) then some (c + 1)
      else none := rfl

theorem fits_of_onGrid? (h : x.onGrid? place = some c) :
    (c = x.gridFloor place ∧ x.FitsBelow place c) ∨ (c = x.gridFloor place + 1 ∧ x.FitsAbove place c) := by
  rw [onGrid?_eq] at h
  grind

theorem not_fits_of_onGrid? (h : x.onGrid? place = none) :
    ¬x.FitsBelow place (x.gridFloor place) ∧ ¬x.FitsAbove place (x.gridFloor place + 1) := by
  rw [onGrid?_eq] at h
  grind

section Within

variable {a b : Nat}

theorem within_of_lt (h : a < b) : x.Within a b := by
  unfold Within
  split <;> omega

theorem Within.le (h : x.Within a b) : a ≤ b := by
  unfold Within at h
  split at h <;> omega

theorem Within.lt (h : x.Within a b) (hodd : x.significand % 2 = 1) : a < b := by
  rwa [Within, if_neg (by omega)] at h

theorem le_of_not_within (h : ¬x.Within a b) : b ≤ a := Nat.le_of_not_lt (mt within_of_lt h)

end Within

theorem admits_of_fits (hbelow : x.FitsBelow place c) (habove : x.FitsAbove place c) : x.Admits (c * 10 ^ place) where
  lower := mul_gridQuarter_le_iff.mp hbelow.le
  upper := mul_gridStep_le_iff.mp habove.le
  odd hodd := by
    have hlower := mt mul_gridStep_le_iff.mpr (Nat.not_le.mpr (hbelow.lt hodd))
    have hupper := mt mul_gridQuarter_le_iff.mpr (Nat.not_le.mpr (habove.lt hodd))
    exact ⟨(not_le.mp hlower).ne, (not_le.mp hupper).ne⟩

theorem quarters_lt (h : x.rank ≠ 0) : x.quarters.1 < x.quarters.2.1 ∧ x.quarters.2.1 < x.quarters.2.2 := by
  have := significand_pos h
  simp only [quarters]
  split <;> omega

/-- What is found on the grid of a power of ten lies in the interval of the number. -/
theorem admits_of_onGrid? (hx : x.rank ≠ 0) (h : x.onGrid? place = some c) : x.Admits (c * 10 ^ place) := by
  have hfloor : x.gridFloor place * x.gridStep place ≤ x.quarters.2.1 * x.gridQuarter place := Nat.div_mul_le_self _ _
  have hceil : x.quarters.2.1 * x.gridQuarter place < (x.gridFloor place + 1) * x.gridStep place :=
    Nat.lt_mul_of_div_lt (Nat.lt_succ_self _) (x.gridStep_pos place)
  obtain ⟨hlower, hupper⟩ := quarters_lt hx
  have hlower := Nat.mul_lt_mul_of_pos_right hlower (x.gridQuarter_pos place)
  have hupper := Nat.mul_lt_mul_of_pos_right hupper (x.gridQuarter_pos place)
  rcases fits_of_onGrid? h with ⟨rfl, hbelow⟩ | ⟨rfl, habove⟩
  · exact admits_of_fits hbelow (within_of_lt (by omega))
  · exact admits_of_fits (within_of_lt (by omega)) habove

/-- A grid whose steps are smaller than the interval is wide has a point in it. -/
theorem onGrid?_ne_none
    (h : x.quarters.1 * x.gridQuarter place + x.gridStep place < x.quarters.2.2 * x.gridQuarter place) :
    x.onGrid? place ≠ none := by
  intro hnone
  obtain ⟨hbelow, habove⟩ := not_fits_of_onGrid? hnone
  have hbelow := le_of_not_within hbelow
  have habove := le_of_not_within habove
  rw [Nat.succ_mul] at habove
  omega

end Grid

/-! ### Seventeen digits are enough -/

theorem lt_pow_length_toDigits (n : Nat) : n < 10 ^ (Nat.toDigits 10 n).length := by
  induction n using Nat.strongRecOn with
  | ind n ih =>
    by_cases hn : n < 10
    · simpa [Nat.toDigits_of_lt_base hn] using hn
    · have hq := ih (n / 10) (by omega)
      rw [Nat.toDigits_of_base_le (by decide) (by omega), List.length_append, List.length_singleton, Nat.pow_succ]
      omega

theorem pow_length_toDigits_le {n : Nat} (h : n ≠ 0) : 10 ^ (Nat.toDigits 10 n).length ≤ 10 * n := by
  induction n using Nat.strongRecOn with
  | ind n ih =>
    by_cases hn : n < 10
    · simp [Nat.toDigits_of_lt_base hn]
      omega
    · have hq := ih (n / 10) (by omega) (by omega)
      rw [Nat.toDigits_of_base_le (by decide) (by omega), List.length_append, List.length_singleton, Nat.pow_succ]
      omega

/-- A positive fraction is at least the power of ten of its first digit. -/
theorem zpow_decimalExponent_le {num den : Nat} (hnum : num ≠ 0) (hden : den ≠ 0) :
    (10 : ℚ) ^ decimalExponent num den * den ≤ num := by
  unfold decimalExponent
  split
  case isTrue hle =>
    have hquot : num / den ≠ 0 := (Nat.div_pos hle (by omega)).ne'
    have hpow := pow_length_toDigits_le hquot
    have hdiv : 10 ^ (Nat.toDigits 10 (num / den)).length * den ≤ 10 * num :=
      (Nat.mul_le_mul_right _ hpow).trans (by rw [Nat.mul_assoc]; exact Nat.mul_le_mul_left _ (Nat.div_mul_le_self _ _))
    rw [zpow_sub₀ (by norm_num), zpow_natCast, zpow_one, div_mul_eq_mul_div, div_le_iff₀ (by norm_num), mul_comm (num : ℚ)]
    exact_mod_cast hdiv
  case isFalse hlt =>
    have hpow := lt_pow_length_toDigits ((den - 1) / num)
    have hdiv : den ≤ num * 10 ^ (Nat.toDigits 10 ((den - 1) / num)).length := by
      have := Nat.lt_mul_of_div_lt hpow (by omega)
      rw [Nat.mul_comm]
      omega
    rw [zpow_neg, zpow_natCast, inv_mul_le_iff₀ (by positivity), mul_comm]
    exact_mod_cast hdiv

theorem zpow_decimalExponent_mul_perOne_le (h : x.rank ≠ 0) :
    (10 : ℚ) ^ decimalExponent x.ratio.1 x.ratio.2 * perOne ≤ ((4 * x.significand * 2 ^ x.scale : Nat) : ℚ) := by
  have hsig := significand_pos h
  have hnum : x.ratio.1 ≠ 0 := (Nat.mul_pos hsig (Nat.pow_pos (by decide))).ne'
  have hden : x.ratio.2 ≠ 0 := (Nat.pow_pos (by decide)).ne'
  have hle := zpow_decimalExponent_le hnum hden
  generalize decimalExponent x.ratio.1 x.ratio.2 = e at hle ⊢
  simp only [ratio, Nat.pow_eq] at hle
  push_cast at hle ⊢
  -- Both sides are brought to the unit of the ends by the power of two that one of them lacks.
  have hunits : (2 : ℚ) ^ (1074 - x.scale) * 2 ^ x.scale * 4 = 2 ^ (x.scale - 1074) * perOne := by
    rw [perOne, show (4 : ℚ) = 2 ^ 2 by norm_num, ← pow_add, ← pow_add, ← pow_add]
    exact congrArg _ (by omega)
  have hpos : (0 : ℚ) < 2 ^ (x.scale - 1074) := by positivity
  refine le_of_mul_le_mul_left ?_ hpos
  calc (2 : ℚ) ^ (x.scale - 1074) * (10 ^ e * perOne) = 10 ^ e * 2 ^ (1074 - x.scale) * (2 ^ x.scale * 4) := by
        linear_combination -(10 : ℚ) ^ e * hunits
    _ ≤ x.significand * 2 ^ (x.scale - 1074) * (2 ^ x.scale * 4) := mul_le_mul_of_nonneg_right hle (by positivity)
    _ = 2 ^ (x.scale - 1074) * (4 * x.significand * 2 ^ x.scale) := by ring

/-- On the grid of the seventeenth digit a step is smaller than the interval of the number is wide. -/
theorem onGrid?_seventeenth (h : x.rank ≠ 0) :
    x.onGrid? (decimalExponent x.ratio.1 x.ratio.2 - 16) ≠ none := by
  have hle := zpow_decimalExponent_mul_perOne_le h
  generalize decimalExponent x.ratio.1 x.ratio.2 = e at hle ⊢
  have hstep : 10 ^ 16 * x.gridStep (e - 16) ≤ 4 * x.significand * x.gridQuarter (e - 16) := by
    refine mul_gridStep_le_iff.mpr (le_trans (le_of_eq ?_) hle)
    rw [zpow_sub₀ (by norm_num), Nat.cast_pow, Nat.cast_ofNat]
    norm_cast
    field_simp
  have hsig := significand_pos h
  have hquarter := x.gridQuarter_pos (e - 16)
  refine onGrid?_ne_none ?_
  generalize x.gridQuarter (e - 16) = a at *
  generalize x.gridStep (e - 16) = b at *
  simp only [quarters]
  split
  case isTrue hpower =>
    rw [hpower.1, perUnit] at hstep ⊢
    omega
  case isFalse =>
    have hbound : 4 * x.significand * a ≤ 4 * (2 * perUnit) * a :=
      Nat.mul_le_mul_right _ (Nat.mul_le_mul_left _ x.significand_lt.le)
    have hwidth : (4 * x.significand + 2) * a = (4 * x.significand - 2) * a + 4 * a := by
      rw [← Nat.add_mul]
      congr 1
      omega
    rw [perUnit] at hbound
    omega

/-- The shortest decimal is found on the grid of some digit. -/
theorem exists_shortest (h : x.rank ≠ 0) :
    ∃ place c, x.onGrid? place = some c ∧ x.shortest = Decimal.ofCount c place := by
  let e := decimalExponent x.ratio.1 x.ratio.2
  let attempt (n : Nat) : Option Decimal := (x.onGrid? (e - n)).map fun c => Decimal.ofCount c (e - n)
  have hlast : (attempt 16).isSome = true := by
    rw [Option.isSome_map, Option.isSome_iff_ne_none]
    exact onGrid?_seventeenth h
  have hsome : ((List.range 17).findSome? attempt).isSome = true :=
    List.findSome?_isSome_iff.mpr ⟨16, by decide, hlast⟩
  obtain ⟨d, hd⟩ := Option.isSome_iff_exists.mp hsome
  obtain ⟨n, -, hn⟩ := List.exists_of_findSome?_eq_some hd
  obtain ⟨c, hc, rfl⟩ := Option.map_eq_some_iff.mp hn
  refine ⟨e - n, c, hc, ?_⟩
  show ((List.range 17).findSome? attempt).getD ⟨[], e⟩ = _
  rw [hd]
  rfl

/-! ### Decimals -/

/-- The fraction a decimal stands for. -/
def Decimal.amount (d : Decimal) : ℚ :=
  Nat.ofDigitChars 10 d.digits 0 * 10 ^ (d.exponent + 1 - d.digits.length)

/-- A decimal as it is written: digits, and the first of them not a zero. -/
structure Decimal.Normal (d : Decimal) : Prop where
  digits : Text.IsDigits d.digits
  head : d.digits.head? ≠ some '0'

namespace Decimal

variable {c : Nat}

theorem toDigits_eq_ofCount_digits (c : Nat) (place : Int) :
    ∃ k, Nat.toDigits 10 c = (ofCount c place).digits ++ List.replicate k '0' := by
  have hzeros : ∀ d ∈ (Nat.toDigits 10 c).rtakeWhile (· == '0'), d = '0' := fun d hd => by
    simpa using List.mem_rtakeWhile_imp hd
  refine ⟨((Nat.toDigits 10 c).rtakeWhile (· == '0')).length, ?_⟩
  rw [← List.eq_replicate_iff.mpr ⟨rfl, hzeros⟩]
  exact List.rdropWhile_append_rtakeWhile.symm

theorem amount_ofCount (c : Nat) (place : Int) : (ofCount c place).amount = c * 10 ^ place := by
  obtain ⟨k, hk⟩ := toDigits_eq_ofCount_digits c place
  have hvalue : c = 10 ^ k * Nat.ofDigitChars 10 (ofCount c place).digits 0 := by
    rw [← Nat.ofDigitChars_replicate_zero, ← Nat.ofDigitChars_append, ← hk, Nat.ofDigitChars_toDigits (by decide) (by decide)]
  have hexponent : (ofCount c place).exponent + 1 - (ofCount c place).digits.length = k + place := by
    have hlength := congrArg List.length hk
    rw [List.length_append, List.length_replicate] at hlength
    show place + (Nat.toDigits 10 c).length - 1 + 1 - _ = _
    omega
  rw [amount, hexponent, zpow_add₀ (by norm_num), zpow_natCast]
  conv_rhs => rw [hvalue]
  push_cast
  ring

theorem normal_ofCount (h : 0 < c) (place : Int) : (ofCount c place).Normal := by
  obtain ⟨k, hk⟩ := toDigits_eq_ofCount_digits c place
  have hhead := Text.head?_showNat_ne_zero h
  have hne : (ofCount c place).digits ≠ [] := by
    intro hnil
    have hvalue := Nat.ofDigitChars_toDigits (b := 10) (n := c) (by decide) (by decide)
    rw [hk, hnil, List.nil_append, Nat.ofDigitChars_replicate_zero] at hvalue
    omega
  rw [Text.showNat, hk, List.head?_append_of_ne_nil _ hne] at hhead
  exact ⟨⟨hne, fun d hd => Text.isDigit_of_mem_showNat (n := c) (by rw [Text.showNat, hk]; simp [hd])⟩, hhead⟩

end Decimal

theorem normal_shortest (h : x.rank ≠ 0) : x.shortest.Normal := by
  obtain ⟨place, c, hc, heq⟩ := exists_shortest h
  have hpos : (0 : ℚ) < c * 10 ^ place := pos_of_admits h (admits_of_onGrid? h hc)
  rw [heq]
  refine Decimal.normal_ofCount (Nat.pos_of_ne_zero fun hzero => ?_) place
  simp [hzero] at hpos

/-- The shortest decimal of a number rounds to it. -/
theorem admits_shortest (h : x.rank ≠ 0) : x.Admits x.shortest.amount := by
  obtain ⟨place, c, hc, heq⟩ := exists_shortest h
  rw [heq, Decimal.amount_ofCount]
  exact admits_of_onGrid? h hc

end TicketDesk.Binary64
