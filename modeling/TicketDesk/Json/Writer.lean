import TicketDesk.Json.Numeral
import TicketDesk.Json.Quoted

/-! # Writing JSON

A value has a compact text without spaces and a pretty text with two spaces of indentation. Members
are written in the order in which the value holds them, and empty containers stay on one line in
both. -/

namespace TicketDesk.Json

/-- The texts of items with a separator between them. -/
def separated (separator : List Char) : List (List Char) → List Char
  | [] => []
  | [x] => x
  | x :: rest => x ++ separator ++ separated separator rest

mutual

def compact : Json → List Char
  | .null => "null".toList
  | .bool true => "true".toList
  | .bool false => "false".toList
  | .whole n => Text.showInt n.val
  | .real x => showReal x
  | .text s => quote s.toList
  | .array items => '[' :: (separated [','] (compactItems items) ++ [']'])
  | .object members => '\x7b' :: (separated [','] (compactMembers members) ++ ['\x7d'])

def compactItems : List Json → List (List Char)
  | [] => []
  | x :: rest => x.compact :: compactItems rest

def compactMembers : List (String × Json) → List (List Char)
  | [] => []
  | (k, x) :: rest => (quote k.toList ++ ':' :: x.compact) :: compactMembers rest

end

def write (v : Json) : String := String.ofList v.compact

def lineBreak (level : Nat) : List Char :=
  '\n' :: List.replicate (2 * level) ' '

/-- Texts on lines of their own, one level in from the brackets around them. -/
def indented (level : Nat) (left right : Char) (parts : List (List Char)) : List Char :=
  if parts = [] then [left, right]
  else left :: (lineBreak (level + 1) ++ separated (',' :: lineBreak (level + 1)) parts
    ++ lineBreak level ++ [right])

mutual

def prettyAt (level : Nat) : Json → List Char
  | .array items => indented level '[' ']' (prettyItems (level + 1) items)
  | .object members => indented level '\x7b' '\x7d' (prettyMembers (level + 1) members)
  | v => v.compact

def prettyItems (level : Nat) : List Json → List (List Char)
  | [] => []
  | x :: rest => x.prettyAt level :: prettyItems level rest

def prettyMembers (level : Nat) : List (String × Json) → List (List Char)
  | [] => []
  | (k, x) :: rest => (quote k.toList ++ ": ".toList ++ x.prettyAt level) :: prettyMembers level rest

end

def pretty (v : Json) : String := String.ofList (v.prettyAt 0)

end TicketDesk.Json
