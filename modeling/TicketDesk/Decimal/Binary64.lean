/-! # Binary floating point

A finite binary64 number is a sign and the rank of its magnitude: the finite magnitudes in increasing
order have ranks 0, 1, 2, …, so neighbouring ranks are neighbouring numbers. A rank below 2^52 is
that many units of 2^-1074; above, every further 2^52 ranks double the unit.

All arithmetic is exact arithmetic on natural numbers followed by one rounding to the nearest number,
where a tie goes to the even rank. -/

namespace TicketDesk

/-- How many ranks in a row share a unit: 2^52. -/
def Binary64.perUnit : Nat := 0x10000000000000

/-- The rank just past the largest finite magnitude. -/
def Binary64.ranks : Nat := 2047 * Binary64.perUnit

/-- A finite binary64 number. -/
structure Binary64 where
  negative : Bool
  rank : Nat
  finite : rank < Binary64.ranks
  deriving DecidableEq

namespace Binary64

def zero (negative : Bool) : Binary64 := ⟨negative, 0, by decide⟩

instance : Inhabited Binary64 := ⟨zero false⟩

def neg (x : Binary64) : Binary64 := ⟨!x.negative, x.rank, x.finite⟩

/-- The significand of a magnitude, at most 2^53. -/
def significand (x : Binary64) : Nat :=
  if x.rank < perUnit then x.rank else perUnit + x.rank % perUnit

/-- A magnitude is its significand times two to this power less 1074. -/
def scale (x : Binary64) : Nat :=
  if x.rank < perUnit then 0 else x.rank / perUnit - 1

/-- A magnitude as a fraction of two natural numbers. -/
def ratio (x : Binary64) : Nat × Nat :=
  (x.significand * Nat.pow 2 (x.scale - 1074), Nat.pow 2 (1074 - x.scale))

/-- A quotient rounded to the nearest natural number, ties to even. -/
def roundQuotient (num den : Nat) : Nat :=
  let q := num / den
  let r := num % den
  if 2 * r < den then q
  else if den < 2 * r then q + 1
  else q + q % 2

/-- The least `k` with `num / den < 2 ^ k`, as an integer. -/
def binaryExponent (num den : Nat) : Int :=
  let k : Int := (num.log2 : Int) - den.log2
  if num * Nat.pow 2 (-k).toNat < den * Nat.pow 2 k.toNat then k else k + 1

/-- The finite number nearest to a positive fraction, or `none` when it rounds past the largest. -/
def nearest? (num den : Nat) : Option Binary64 :=
  if num = 0 then some (zero false)
  else
    let scale : Nat := (binaryExponent num den - 53 + 1074).toNat
    let m := roundQuotient (num * Nat.pow 2 (1074 - scale)) (den * Nat.pow 2 (scale - 1074))
    let rank := scale * perUnit + m
    if h : rank < ranks then some ⟨false, rank, h⟩ else none

/-- The product of two magnitudes, rounded. -/
def mul? (x y : Binary64) : Option Binary64 :=
  let a := x.ratio
  let b := y.ratio
  nearest? (a.1 * b.1) (a.2 * b.2)

/-- The quotient of two magnitudes, rounded. -/
def div? (x y : Binary64) : Option Binary64 :=
  let a := x.ratio
  let b := y.ratio
  nearest? (a.1 * b.2) (a.2 * b.1)

def ofNat? (n : Nat) : Option Binary64 := nearest? n 1

def powerOfTen? (k : Nat) : Option Binary64 := ofNat? (Nat.pow 10 k)

/-- A magnitude divided so many times by 10^308, the largest finite power of ten. -/
def lowered : Nat → Binary64 → Binary64
  | 0, x => x
  | n + 1, x =>
    if x.rank = 0 then x
    else lowered n (((powerOfTen? 308).bind x.div?).getD x)

/-- A magnitude times a power of ten, by one rounded product or quotient with the nearest number to
    that power. A power below 10^-308 is first reached in steps of 10^308. -/
def timesPowerOfTen? (x : Binary64) (e : Int) : Option Binary64 :=
  if e < -308 then
    let steps := (-e - 1).toNat / 308
    (powerOfTen? (-(e + 308 * steps)).toNat).bind (lowered steps x).div?
  else if 308 < e then
    if x.rank = 0 then some x else none
  else if 0 ≤ e then (powerOfTen? e.toNat).bind x.mul?
  else (powerOfTen? (-e).toNat).bind x.div?

end Binary64

end TicketDesk
