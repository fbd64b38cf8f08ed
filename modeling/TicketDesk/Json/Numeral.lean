import TicketDesk.Decimal.Shortest
import TicketDesk.Json.Value
import TicketDesk.Text.Integer

/-! # Numerals

The text of a JSON number. A numeral without fraction and exponent that fits 64 bits denotes a whole
number; every other numeral denotes a binary64 number, and so does a zero with a minus sign. Digits
are gathered into a significand below 2^64, and the significand is then scaled by a power of ten. -/

namespace TicketDesk.Json

/-- A numeral as written: its sign, the digits of its three parts, and whether it has the latter two. -/
structure Numeral where
  negative : Bool
  digits : List Char
  fraction : Option (List Char)
  exponent : Option (Bool × List Char)
  deriving DecidableEq, Repr

def digitRun (cs : List Char) : List Char × List Char :=
  (cs.takeWhile Char.isDigit, cs.dropWhile Char.isDigit)

def fraction? : List Char → Option (Option (List Char) × List Char)
  | '.' :: rest =>
    let run := digitRun rest
    if run.1 = [] then none else some (some run.1, run.2)
  | cs => some (none, cs)

def exponentDigits? (negative : Bool) (cs : List Char) : Option (Option (Bool × List Char) × List Char) :=
  let run := digitRun cs
  if run.1 = [] then none else some (some (negative, run.1), run.2)

def signedExponent? : List Char → Option (Option (Bool × List Char) × List Char)
  | '+' :: rest => exponentDigits? false rest
  | '-' :: rest => exponentDigits? true rest
  | cs => exponentDigits? false cs

def exponent? : List Char → Option (Option (Bool × List Char) × List Char)
  | 'e' :: rest => signedExponent? rest
  | 'E' :: rest => signedExponent? rest
  | cs => some (none, cs)

/-- Reads a numeral after its sign. More than one digit does not begin with a zero. -/
def unsigned? (negative : Bool) (cs : List Char) : Option (Numeral × List Char) := do
  let run := digitRun cs
  if run.1 = [] ∨ (run.1.head? = some '0' ∧ 1 < run.1.length) then none
  let (fraction, rest) ← fraction? run.2
  let (exponent, rest) ← exponent? rest
  some (⟨negative, run.1, fraction, exponent⟩, rest)

def numeral? : List Char → Option (Numeral × List Char)
  | '-' :: rest => unsigned? true rest
  | cs => unsigned? false cs

/-- Takes digits into a significand while it stays below 2^64, and gives the digits left. -/
def absorb (significand : Nat) : List Char → Nat × List Char
  | [] => (significand, [])
  | d :: rest =>
    let next := significand * 10 + (d.toNat - 48)
    if next < UInt64.size then absorb next rest else (significand, d :: rest)

def Numeral.power (n : Numeral) : Int :=
  match n.exponent with
  | none => 0
  | some (negative, ds) =>
    let e : Int := Nat.ofDigitChars 10 ds 0
    if negative then -e else e

/-- The significand and the power of ten it is scaled by. -/
def Numeral.scaled (n : Numeral) : Nat × Int :=
  let (s, left) := absorb 0 n.digits
  let fraction := n.fraction.getD []
  let (t, unread) := absorb s fraction
  (t, (left.length : Int) - (fraction.length - unread.length : Nat) + n.power)

def signed (negative : Bool) (x : Binary64) : Binary64 := if negative then x.neg else x

/-- The binary64 number of a numeral, or `none` when it lies beyond the largest finite number. -/
def Numeral.real? (n : Numeral) : Option Json :=
  let (s, e) := n.scaled
  ((Binary64.ofNat? s).bind (·.timesPowerOfTen? e)).map fun x => Json.real (signed n.negative x)

def Numeral.integer (n : Numeral) : Int :=
  let v : Int := Nat.ofDigitChars 10 n.digits 0
  if n.negative then -v else v

/-- Whether a numeral denotes a binary64 number although its integer fits: it has a fraction or an
    exponent, or is a zero with a minus sign. -/
def Numeral.isReal (n : Numeral) : Bool :=
  n.fraction.isSome || n.exponent.isSome || (n.negative && n.integer == 0)

def Numeral.value? (n : Numeral) : Option Json :=
  if n.isReal then n.real?
  else match Whole.ofInt? n.integer with
    | some w => some (.whole w)
    | none => n.real?

/-- The text of a binary64 number: at least one decimal when it is written positionally, which it is
    between 10^-5 and 10^16, and a sign of the exponent otherwise. -/
def showReal (x : Binary64) : List Char :=
  let sign := if x.negative then ['-'] else []
  if x.rank = 0 then sign ++ "0.0".toList
  else
    let d := x.shortest
    let n : Int := d.digits.length
    let body :=
      if d.exponent < -5 ∨ 15 < d.exponent then
        let tail := d.digits.drop 1
        let mantissa := d.digits.take 1 ++ (if tail = [] then [] else '.' :: tail)
        let mark := if d.exponent < 0 then "e-".toList else "e+".toList
        mantissa ++ mark ++ Text.showNat d.exponent.natAbs
      else if d.exponent < 0 then
        "0.".toList ++ List.replicate (-d.exponent - 1).toNat '0' ++ d.digits
      else if n ≤ d.exponent + 1 then
        d.digits ++ List.replicate (d.exponent + 1 - n).toNat '0' ++ ".0".toList
      else
        d.digits.take (d.exponent + 1).toNat ++ '.' :: d.digits.drop (d.exponent + 1).toNat
    sign ++ body

end TicketDesk.Json
