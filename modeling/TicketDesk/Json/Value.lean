import TicketDesk.Decimal.Binary64

/-! # JSON values

A JSON value as the console holds it. A number is a whole number of 64 bits or a binary64 number, and
the two never compare equal. The members of an object are kept in the order of their keys, each key
once. -/

namespace TicketDesk

/-- A whole number that fits 64 bits, signed or unsigned. -/
structure Json.Whole where
  val : Int
  lower : -0x8000000000000000 ≤ val
  upper : val < 0x10000000000000000
  deriving DecidableEq

/-- A JSON value. -/
inductive Json where
  | null
  | bool (b : Bool)
  | whole (n : Json.Whole)
  | real (x : Binary64)
  | text (s : String)
  | array (items : List Json)
  | object (members : List (String × Json))

namespace Json

instance : Inhabited Json := ⟨.null⟩

def Whole.ofInt? (n : Int) : Option Whole :=
  if h : -0x8000000000000000 ≤ n ∧ n < 0x10000000000000000 then some ⟨n, h.1, h.2⟩ else none

def Whole.ofInt64 (n : Int64) : Whole :=
  ⟨n.toInt, Int64.le_toInt n, Int.lt_trans (Int64.toInt_lt n) (by decide)⟩

def Whole.ofUInt64 (n : UInt64) : Whole :=
  ⟨n.toNat, by omega, Int.ofNat_lt.mpr n.toNat_lt⟩

def Whole.ofUInt16 (n : UInt16) : Whole :=
  .ofUInt64 n.toUInt64

/-- Puts a member into members sorted by key, in place of one with the same key. -/
def insertMember (key : String) (value : Json) : List (String × Json) → List (String × Json)
  | [] => [(key, value)]
  | (k, v) :: rest =>
    if key = k then (key, value) :: rest
    else if key < k then (key, value) :: (k, v) :: rest
    else (k, v) :: insertMember key value rest

/-- Members in any order, sorted by key; of equal keys the last one stays. -/
def sortMembers (members : List (String × Json)) : List (String × Json) :=
  members.foldl (fun sorted m => insertMember m.1 m.2 sorted) []

/-- The object with the given members; of equal keys the last one counts. -/
def ofMembers (members : List (String × Json)) : Json :=
  .object (sortMembers members)

def member? (key : String) : Json → Option Json
  | .object members => members.lookup key
  | _ => none

def ofInt64 (n : Int64) : Json := .whole (.ofInt64 n)

def ofUInt64 (n : UInt64) : Json := .whole (.ofUInt64 n)

def ofUInt16 (n : UInt16) : Json := .whole (.ofUInt16 n)

def ofText? : Option String → Json
  | some s => .text s
  | none => .null

mutual

/-- How many containers lie around each other at the deepest place of a value. -/
def depth : Json → Nat
  | .array items => depthItems items + 1
  | .object members => depthMembers members + 1
  | _ => 0

def depthItems : List Json → Nat
  | [] => 0
  | x :: rest => max x.depth (depthItems rest)

def depthMembers : List (String × Json) → Nat
  | [] => 0
  | (_, x) :: rest => max x.depth (depthMembers rest)

end

end Json

end TicketDesk
