import TicketDesk.Http

/-! # Responses on the wire

What a server sends back, as bytes: a status line, headers and a body whose length the headers give. A
body comes in one piece of a known length, in chunks, or up to the end of the connection. -/

namespace TicketDesk.Http

/-- What was read of a response. -/
structure Response where
  status : UInt16
  body : String
  deriving DecidableEq, Repr

namespace Response

def chars (bytes : List UInt8) : List Char := bytes.map fun b => Char.ofNat b.toNat

def line (bytes : List UInt8) : List Char × List UInt8 :=
  ((chars (bytes.takeWhile (· ≠ 10))).filter (· ≠ '\r'), (bytes.dropWhile (· ≠ 10)).drop 1)

theorem length_line_le (bytes : List UInt8) : (line bytes).2.length ≤ bytes.length - 1 := by
  have := (List.dropWhile_sublist (l := bytes) (fun x => decide (x ≠ 10))).length_le
  simp only [line, List.length_drop]
  omega

/-- The header lines up to the blank one, and the bytes after it. -/
def headerLines (bytes : List UInt8) : List (List Char) × List UInt8 :=
  if _h : bytes = [] then ([], [])
  else if (line bytes).1 = [] then ([], (line bytes).2)
  else
    let rest := headerLines (line bytes).2
    ((line bytes).1 :: rest.1, rest.2)
termination_by bytes.length
decreasing_by
  have := length_line_le bytes
  have := List.length_pos_iff.mpr _h
  omega

/-- The value of a header. Its name is in lower case here and in any case in a response. -/
def header? (name : String) (lines : List (List Char)) : Option (List Char) :=
  lines.findSome? fun l =>
    if (l.takeWhile (· ≠ ':')).map Char.toLower = name.toList then
      some (Text.trimBlanks ((l.dropWhile (· ≠ ':')).drop 1))
    else none

def hexDigit? (c : Char) : Option Nat :=
  if c.isDigit then some (c.toNat - 48)
  else if 'a' ≤ c.toLower ∧ c.toLower ≤ 'f' then some (c.toLower.toNat - 87)
  else none

def chunkSize? (cs : List Char) : Option Nat :=
  match cs.takeWhile fun c => (hexDigit? c).isSome with
  | [] => none
  | digits => some ((digits.filterMap hexDigit?).foldl (fun n d => n * 16 + d) 0)

/-- The body that chunks make up; none when they break off. -/
def ofChunks? (bytes : List UInt8) : Option (List UInt8) :=
  if _h : bytes = [] then none
  else
    match chunkSize? (line bytes).1 with
    | none => none
    | some 0 => some []
    | some size =>
      if (line bytes).2.length < size then none
      else (ofChunks? (line ((line bytes).2.drop size)).2).map ((line bytes).2.take size ++ ·)
termination_by bytes.length
decreasing_by
  have := List.length_pos_iff.mpr _h
  have := length_line_le bytes
  have := length_line_le ((line bytes).2.drop size)
  simp only [List.length_drop] at this
  omega

/-- The body of a response with the given headers; none when it breaks off. -/
def body? (lines : List (List Char)) (bytes : List UInt8) : Option (List UInt8) :=
  if (header? "transfer-encoding" lines).map (·.map Char.toLower) = some "chunked".toList then ofChunks? bytes
  else
    match (header? "content-length" lines).bind (Text.natBelow? UInt64.size) with
    | some size => if bytes.length < size then none else some (bytes.take size)
    | none => some bytes

/-- The text of bytes. When they are not UTF-8, a question mark stands for every byte beyond ASCII. -/
def text (bytes : List UInt8) : String :=
  (String.fromUTF8? ⟨bytes.toArray⟩).getD
    (String.ofList (chars (bytes.map fun b => if b < 0x80 then b else 0x3F)))

def status? (cs : List Char) : Option UInt16 :=
  if "HTTP/1.".toList.isPrefixOf cs then
    (Text.natBelow? 1000 (((cs.drop 9).takeWhile (· ≠ ' ')))).bind fun n =>
      if 100 ≤ n then some (UInt16.ofNat n) else none
  else none

def ofBytes? (bytes : List UInt8) : Option Response := do
  let first := line bytes
  let status ← status? first.1
  let (lines, rest) := headerLines first.2
  let body ← if hasBody status then body? lines rest else some []
  return ⟨status, text body⟩

end Response

end TicketDesk.Http
