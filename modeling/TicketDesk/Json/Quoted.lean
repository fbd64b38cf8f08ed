/-! # Quoted text

The text of a JSON string. A quote, a backslash and the control characters are escaped, every other
character stands for itself. The reader takes every escape of the format; characters outside the
basic plane may be written as two surrogate units, and a text with a unit that has no partner has no
value although it is well formed. -/

namespace TicketDesk.Json

/-- One element between the quotes: a character, or a `\u` escape of a UTF-16 unit. -/
inductive Piece where
  | char (c : Char)
  | unit (u : Nat)
  deriving DecidableEq, Repr

/-- The lower-case hexadecimal digit of a number below sixteen. -/
def lowerHex (n : Nat) : Char :=
  if n < 10 then Char.ofNat (48 + n) else Char.ofNat (87 + n)

def escape (c : Char) : List Char :=
  if c = '"' then ['\\', '"']
  else if c = '\\' then ['\\', '\\']
  else if c = '\n' then ['\\', 'n']
  else if c = '\r' then ['\\', 'r']
  else if c = '\t' then ['\\', 't']
  else if c = '\x08' then ['\\', 'b']
  else if c = '\x0c' then ['\\', 'f']
  else if c.toNat < 32 then ['\\', 'u', '0', '0', lowerHex (c.toNat / 16), lowerHex (c.toNat % 16)]
  else [c]

def quote (s : List Char) : List Char :=
  '"' :: (s.flatMap escape ++ ['"'])

/-- The value of a hexadecimal digit of either case. -/
def hexDigit? (c : Char) : Option Nat :=
  if '0' ≤ c ∧ c ≤ '9' then some (c.toNat - 48)
  else if 'a' ≤ c ∧ c ≤ 'f' then some (c.toNat - 87)
  else if 'A' ≤ c ∧ c ≤ 'F' then some (c.toNat - 55)
  else none

def hexUnit? (a b c d : Char) : Option Nat := do
  let a ← hexDigit? a
  let b ← hexDigit? b
  let c ← hexDigit? c
  let d ← hexDigit? d
  some (((a * 16 + b) * 16 + c) * 16 + d)

/-- The character that a one-letter escape stands for. -/
def escaped? : Char → Option Char
  | '"' => some '"'
  | '\\' => some '\\'
  | '/' => some '/'
  | 'b' => some '\x08'
  | 'f' => some '\x0c'
  | 'n' => some '\n'
  | 'r' => some '\r'
  | 't' => some '\t'
  | _ => none

/-- Reads the elements up to the closing quote and gives the rest after it. A control character, an
    unknown escape and a missing quote are errors. -/
def pieces? : List Char → Option (List Piece × List Char)
  | [] => none
  | '"' :: rest => some ([], rest)
  | '\\' :: 'u' :: a :: b :: c :: d :: rest => do
    let u ← hexUnit? a b c d
    let (ps, after) ← pieces? rest
    some (.unit u :: ps, after)
  | '\\' :: e :: rest => do
    let c ← escaped? e
    let (ps, after) ← pieces? rest
    some (.char c :: ps, after)
  | c :: rest =>
    if c = '\\' ∨ c.toNat < 32 then none
    else do
      let (ps, after) ← pieces? rest
      some (.char c :: ps, after)

/-- Whether a UTF-16 unit is the first of a pair. -/
def isHigh (u : Nat) : Bool := 0xD800 ≤ u && u < 0xDC00

/-- Whether a UTF-16 unit is the second of a pair. -/
def isLow (u : Nat) : Bool := 0xDC00 ≤ u && u < 0xE000

/-- The characters that elements stand for, unless a unit lacks its partner. -/
def characters? : List Piece → Option (List Char)
  | [] => some []
  | .char c :: rest => (characters? rest).map (c :: ·)
  | .unit hi :: .unit lo :: rest =>
    if isHigh hi then
      if isLow lo then
        (characters? rest).map (Char.ofNat (0x10000 + (hi - 0xD800) * 0x400 + (lo - 0xDC00)) :: ·)
      else none
    else if isLow hi then none
    else (characters? (.unit lo :: rest)).map (Char.ofNat hi :: ·)
  | .unit u :: rest =>
    if isHigh u || isLow u then none else (characters? rest).map (Char.ofNat u :: ·)

end TicketDesk.Json
