import TicketDesk.Decimal.Binary64

/-! # Shortest decimals

The decimal of a binary64 number is the one with the fewest digits that reads back as the number: it
lies in the interval of reals that round to it. Of two with equally many digits the nearer one is
taken, and of two equally near ones the one whose last digit is even. -/

namespace TicketDesk.Binary64

/-- The digits of a positive decimal fraction, first one not zero, and the power of ten of the first. -/
structure Decimal where
  digits : List Char
  exponent : Int
  deriving DecidableEq, Repr

/-- The power of ten of the first digit of a positive fraction. -/
def decimalExponent (num den : Nat) : Int :=
  if den ≤ num then (Nat.toDigits 10 (num / den)).length - 1
  else -((Nat.toDigits 10 ((den - 1) / num)).length : Int)

/-- The lower end, the number and the upper end of the interval of reals that round to a number, in
    units of a quarter of its last binary place. Below a power of two the numbers lie twice as close. -/
def quarters (x : Binary64) : Nat × Nat × Nat :=
  let m := x.significand
  let lower := if m = perUnit ∧ 0 < x.scale then 4 * m - 1 else 4 * m - 2
  (lower, 4 * m, 4 * m + 2)

/-- The multiple of `10 ^ place` in the interval of a number that lies nearest to it, counted in that
    unit. -/
def onGrid? (x : Binary64) (place : Int) : Option Nat :=
  let (lower, value, upper) := x.quarters
  let quarter : Int := (x.scale : Int) - 1076
  let a := Nat.pow 2 quarter.toNat * Nat.pow 10 (-place).toNat
  let b := Nat.pow 2 (-quarter).toNat * Nat.pow 10 place.toNat
  let c := value * a / b
  let r := value * a % b
  let even := x.significand % 2 = 0
  let belowFits := if even then lower * a ≤ c * b else lower * a < c * b
  let aboveFits := if even then (c + 1) * b ≤ upper * a else (c + 1) * b < upper * a
  if belowFits then
    if aboveFits then
      if 2 * r < b ∨ (2 * r = b ∧ c % 2 = 0) then some c else some (c + 1)
    else some c
  else if aboveFits then some (c + 1)
  else none

/-- The digits of a count of units of `10 ^ place`, without the zeros at its end. -/
def Decimal.ofCount (count : Nat) (place : Int) : Decimal :=
  let ds := Nat.toDigits 10 count
  let kept := (ds.reverse.dropWhile (· == '0')).reverse
  ⟨kept, place + ds.length - 1⟩

/-- The shortest decimal of a number other than zero; seventeen digits are always enough. -/
def shortest (x : Binary64) : Decimal :=
  let r := x.ratio
  let e := decimalExponent r.1 r.2
  let attempt (n : Nat) : Option Decimal :=
    let place := e - n
    (x.onGrid? place).map fun c => Decimal.ofCount c place
  ((List.range 17).findSome? attempt).getD ⟨[], e⟩

end TicketDesk.Binary64
