/-! # Whole numbers as text

A whole number is written in decimal without leading zeros, with a minus sign when it is negative. It
is read from an optional sign and one or more ASCII digits, so leading zeros and a plus sign are read
but never written. -/

namespace TicketDesk.Text

def showNat (n : Nat) : List Char :=
  Nat.toDigits 10 n

def showInt : Int → List Char
  | .ofNat n => showNat n
  | .negSucc n => '-' :: showNat (n + 1)

/-- Reads one or more ASCII digits, and nothing else. -/
def digits? (cs : List Char) : Option Nat :=
  if cs ≠ [] ∧ cs.all Char.isDigit then some (Nat.ofDigitChars 10 cs 0) else none

/-- Reads an optional sign and one or more ASCII digits. -/
def int? : List Char → Option Int
  | '+' :: ds => (digits? ds).map Int.ofNat
  | '-' :: ds => (digits? ds).map fun n => -Int.ofNat n
  | ds => (digits? ds).map Int.ofNat

/-- Reads a whole number that fits 64 signed bits. -/
def int64? (cs : List Char) : Option Int64 :=
  (int? cs).bind fun n =>
    if -0x8000000000000000 ≤ n ∧ n < 0x8000000000000000 then some (Int64.ofInt n) else none

/-- Reads an optional plus sign and one or more ASCII digits that denote a number below `bound`. -/
def natBelow? (bound : Nat) (cs : List Char) : Option Nat :=
  let ds := match cs with
    | '+' :: rest => rest
    | other => other
  (digits? ds).bind fun n => if n < bound then some n else none

theorem isDigit_of_mem_showNat {n : Nat} {c : Char} (h : c ∈ showNat n) : c.isDigit = true :=
  Nat.isDigit_of_mem_toDigits (b := 10) (n := n) (by decide) (by decide) h

theorem showNat_ne_nil (n : Nat) : showNat n ≠ [] := by
  simp [showNat]

theorem digits?_showNat (n : Nat) : digits? (showNat n) = some n := by
  have hall : (showNat n).all Char.isDigit = true :=
    List.all_eq_true.mpr fun _ hc => isDigit_of_mem_showNat hc
  rw [digits?, if_pos ⟨showNat_ne_nil n, hall⟩, showNat, Nat.ofDigitChars_toDigits (by decide) (by decide)]

theorem int?_showInt (n : Int) : int? (showInt n) = some n := by
  cases n with
  | ofNat n =>
    have hd := digits?_showNat n
    have hc := fun c => isDigit_of_mem_showNat (n := n) (c := c)
    simp only [showInt, int?]
    split
    · rename_i h; simp_all
    · rename_i h; simp_all
    · simp [hd]
  | negSucc n => simp [showInt, int?, digits?_showNat]; omega

end TicketDesk.Text
