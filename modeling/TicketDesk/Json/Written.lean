import TicketDesk.Json.Numeral
import TicketDesk.Json.Quoted

/-! # Documents as written

A document is read in two stages. The first reads the grammar and keeps what the text says: members in
their order with repeated keys, texts and numerals that are well formed but have no value, and
containers at any depth. The second (`Json.Record`, `Written.value?`) gives it a meaning. A member
that is skipped is only held to the grammar. -/

namespace TicketDesk.Json

/-- A document as written. A text is `none` when it is well formed and has no value; a number is kept as
    its numeral. -/
inductive Written where
  | null
  | bool (b : Bool)
  | number (n : Numeral)
  | text (s : Option String)
  | array (items : List Written)
  | object (members : List (Option String × Written))

namespace Written

instance : Inhabited Written := ⟨.null⟩

/-- The characters that may stand between the parts of a document. -/
def isSpace (c : Char) : Bool := c = ' ' || c = '\n' || c = '\t' || c = '\r'

def skip (cs : List Char) : List Char := cs.dropWhile isSpace

/-- Reads a text after its opening quote. -/
def text? (cs : List Char) : Option (Option String × List Char) :=
  (pieces? cs).map fun r => ((characters? r.1).map String.ofList, r.2)

def number? (cs : List Char) : Option (Written × List Char) :=
  (numeral? cs).map fun r => (.number r.1, r.2)

mutual

/-- Reads one value, spaces before it included, and gives the rest after it. -/
def value (fuel : Nat) (cs : List Char) : Option (Written × List Char) :=
  match fuel with
  | 0 => none
  | fuel + 1 =>
    match skip cs with
    | 'n' :: 'u' :: 'l' :: 'l' :: rest => some (.null, rest)
    | 't' :: 'r' :: 'u' :: 'e' :: rest => some (.bool true, rest)
    | 'f' :: 'a' :: 'l' :: 's' :: 'e' :: rest => some (.bool false, rest)
    | '"' :: rest => (text? rest).map fun r => (.text r.1, r.2)
    | '[' :: rest =>
      match skip rest with
      | ']' :: after => some (.array [], after)
      | _ => (items fuel rest).map fun r => (.array r.1, r.2)
    | '\x7b' :: rest =>
      match skip rest with
      | '\x7d' :: after => some (.object [], after)
      | _ => (members fuel rest).map fun r => (.object r.1, r.2)
    | other => number? other

def items (fuel : Nat) (cs : List Char) : Option (List Written × List Char) :=
  match fuel with
  | 0 => none
  | fuel + 1 => do
    let (x, rest) ← value fuel cs
    match skip rest with
    | ',' :: rest => (items fuel rest).map fun r => (x :: r.1, r.2)
    | ']' :: rest => some ([x], rest)
    | _ => none

/-- Reads the members of an object up to its closing brace. -/
def members (fuel : Nat) (cs : List Char) : Option (List (Option String × Written) × List Char) :=
  match fuel with
  | 0 => none
  | fuel + 1 =>
    match skip cs with
    | '"' :: rest => do
      let (key, rest) ← text? rest
      match skip rest with
      | ':' :: rest => do
        let (x, rest) ← value fuel rest
        match skip rest with
        | ',' :: rest => (members fuel rest).map fun r => ((key, x) :: r.1, r.2)
        | '\x7d' :: rest => some ([(key, x)], rest)
        | _ => none
      | _ => none
    | _ => none

end

/-- Reads a document: one value with nothing but spaces around it. Every step but the one into a
    value reads a character, so twice the length is fuel enough. -/
def ofChars? (cs : List Char) : Option Written :=
  match value (2 * cs.length + 2) cs with
  | some (x, rest) => if skip rest = [] then some x else none
  | none => none

def ofText? (s : String) : Option Written := ofChars? s.toList

mutual

/-- The value of a document whose containers nest at most `depth` deep. -/
def value? (depth : Nat) : Written → Option Json
  | .null => some .null
  | .bool b => some (.bool b)
  | .number n => n.value?
  | .text s => s.map .text
  | .array items =>
    match depth with
    | 0 => none
    | depth + 1 => (values? depth items).map .array
  | .object members =>
    match depth with
    | 0 => none
    | depth + 1 => (memberValues? depth members).map ofMembers

def values? (depth : Nat) : List Written → Option (List Json)
  | [] => some []
  | x :: rest => do
    let v ← value? depth x
    let vs ← values? depth rest
    some (v :: vs)

def memberValues? (depth : Nat) : List (Option String × Written) → Option (List (String × Json))
  | [] => some []
  | (key, x) :: rest => do
    let k ← key
    let v ← value? depth x
    let vs ← memberValues? depth rest
    some ((k, v) :: vs)

end

end Written

def nesting : Nat := 127

def read? (s : String) : Option Json :=
  (Written.ofText? s).bind (Written.value? nesting)

end TicketDesk.Json
