import TicketDesk.Json.Quoted

/-! # Quoted text read back

Between quotes each character is written as one element that stands for that character again, so a
text comes back from its quoted form whatever follows it. -/

namespace TicketDesk.Json

/-! ### One character -/

theorem hexDigit?_lowerHex {n : Nat} (h : n < 16) : hexDigit? (lowerHex n) = some n := by
  revert n
  decide

/-- The characters that are escaped by a letter of their own. -/
def hasShortEscape (c : Char) : Bool :=
  c = '"' || c = '\\' || c = '\n' || c = '\r' || c = '\t' || c = '\x08' || c = '\x0c'

/-- The element that a character is written as. -/
def piece (c : Char) : Piece :=
  if hasShortEscape c then .char c else if c.toNat < 32 then .unit c.toNat else .char c

theorem pieces?_escape (c : Char) (rest : List Char) :
    pieces? (escape c ++ rest) = (pieces? rest).map fun r => (piece c :: r.1, r.2) := by
  by_cases hs : hasShortEscape c = true
  · rw [piece, if_pos hs]
    simp only [hasShortEscape, Bool.or_eq_true, decide_eq_true_eq] at hs
    rcases hs with (((((rfl | rfl) | rfl) | rfl) | rfl) | rfl) | rfl <;>
      cases h : pieces? rest <;> simp [escape, pieces?, escaped?, h]
  · rw [piece, if_neg hs]
    simp only [hasShortEscape, Bool.or_eq_true, decide_eq_true_eq, not_or] at hs
    obtain ⟨⟨⟨⟨⟨⟨h1, h2⟩, h3⟩, h4⟩, h5⟩, h6⟩, h7⟩ := hs
    simp only [escape, if_neg h1, if_neg h2, if_neg h3, if_neg h4, if_neg h5, if_neg h6, if_neg h7]
    by_cases hc : c.toNat < 32
    · have hhigh := hexDigit?_lowerHex (n := c.toNat / 16) (by omega)
      have hlow := hexDigit?_lowerHex (n := c.toNat % 16) (by omega)
      have hzero : hexDigit? '0' = some 0 := by decide
      have hval : c.toNat / 16 * 16 + c.toNat % 16 = c.toNat := by omega
      cases h : pieces? rest <;> simp [hc, pieces?, hexUnit?, hhigh, hlow, hzero, hval, h]
    · rw [if_neg hc, if_neg hc]
      cases h : pieces? rest <;> simp [pieces?, h2, hc, h]

theorem characters?_piece (c : Char) (ps : List Piece) :
    characters? (piece c :: ps) = (characters? ps).map (c :: ·) := by
  unfold piece
  split
  · simp [characters?]
  · split
    · rename_i hc
      have hhigh : isHigh c.toNat = false := by simp [isHigh]; omega
      have hlow : isLow c.toNat = false := by simp [isLow]; omega
      cases ps with
      | nil => simp [characters?, hhigh, hlow]
      | cons p rest => cases p <;> simp [characters?, hhigh, hlow]
    · simp [characters?]

/-! ### A text -/

theorem pieces?_flatMap_escape (s rest : List Char) :
    pieces? (s.flatMap escape ++ '"' :: rest) = some (s.map piece, rest) := by
  induction s with
  | nil => simp [pieces?]
  | cons c s ih => simp [List.append_assoc, pieces?_escape, ih]

theorem characters?_map_piece (s : List Char) : characters? (s.map piece) = some s := by
  induction s with
  | nil => simp [characters?]
  | cons c s ih => simp [characters?_piece, ih]

end TicketDesk.Json
