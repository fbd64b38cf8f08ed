import TicketDesk.Json.Written
import TicketDesk.Json.Writer

/-! # Records in JSON

A record is written as an object with its fields in a fixed order. It is read from an object with the
fields in any order, where unknown members are skipped and a field given twice is an error, or from a
list of the fields in their order. A decoder is told how many containers may still be opened. -/

namespace TicketDesk.Json

/-- Reads a value of a type from a document, at a place where `depth` more containers may be opened. -/
abbrev Decoder (α : Type) := (depth : Nat) → Written → Option α

namespace Decoder

def text : Decoder String
  | _, .text s => s
  | _, _ => none

def bool : Decoder Bool
  | _, .bool b => some b
  | _, _ => none

/-- Reads a whole number; a number with a fraction or an exponent is none. -/
def whole : Decoder Int
  | _, .number n =>
    match n.value? with
    | some (.whole w) => some w.val
    | _ => none
  | _, _ => none

/-- Reads a whole number of 64 signed bits. -/
def int64 : Decoder Int64 := fun depth w =>
  (whole depth w).bind fun n => if n < 0x8000000000000000 then some (Int64.ofInt n) else none

/-- Reads a whole number of 64 unsigned bits. -/
def uint64 : Decoder UInt64 := fun depth w =>
  (whole depth w).bind fun n => if 0 ≤ n then some (UInt64.ofNat n.toNat) else none

/-- Reads a whole number of 16 unsigned bits. -/
def uint16 : Decoder UInt16 := fun depth w =>
  (whole depth w).bind fun n => if 0 ≤ n ∧ n < 0x10000 then some (UInt16.ofNat n.toNat) else none

def value : Decoder Json := Written.value?

/-- Reads `null` as nothing and everything else as a value of the type. -/
def nullable {α : Type} (decoder : Decoder α) : Decoder (Option α)
  | _, .null => some none
  | depth, w => (decoder depth w).map some

def list {α : Type} (decoder : Decoder α) : Decoder (List α)
  | depth + 1, .array items => items.mapM (decoder depth)
  | _, _ => none

/-- Reads one of a fixed set of names: the name as a text, or as the only member of an object, over
    `null`. -/
def name {α : Type} (ofName? : String → Option α) : Decoder α
  | _, .text (some s) => ofName? s
  | _ + 1, .object [(some s, .null)] => ofName? s
  | _, _ => none

end Decoder

abbrev Fields := List (String × Written)

/-- The members with a known name; none when a known name stands twice or a name has no value. -/
def knownMembers? (names : List String) : List (Option String × Written) → Option Fields
  | [] => some []
  | (none, _) :: _ => none
  | (some k, w) :: rest => do
    let found ← knownMembers? names rest
    if k ∈ names then
      if (found.lookup k).isSome then none else some ((k, w) :: found)
    else some found

def fields? (names : List String) : Written → Option Fields
  | .array items => if items.length ≤ names.length then some (names.zip items) else none
  | .object members => knownMembers? names members
  | _ => none

def Decoder.record {α : Type} (names : List String) (build : (depth : Nat) → Fields → Option α) : Decoder α
  | depth + 1, w => (fields? names w).bind (build depth)
  | 0, _ => none

def Fields.required {α : Type} (fields : Fields) (name : String) (decoder : Decoder α) (depth : Nat) : Option α :=
  (fields.lookup name).bind (decoder depth)

def Fields.default {α : Type} (fields : Fields) (name : String) (decoder : Decoder α) (depth : Nat) (fallback : α) :
    Option α :=
  match fields.lookup name with
  | some w => decoder depth w
  | none => some fallback

def decode? {α : Type} (decoder : Decoder α) (s : String) : Option α :=
  (Written.ofText? s).bind (decoder nesting)

end TicketDesk.Json
