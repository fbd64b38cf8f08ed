import TicketDesk.Json.Writer
import TicketDesk.Json.Written

/-! # Layouts

The compact and the pretty text of a value differ in the spaces between their parts and in nothing else. So both are the
text of the value in a layout, which says what spaces there are, and what reads the text in every layout reads both. -/

namespace TicketDesk.Json

/-- The spaces between the parts of a text. -/
structure Layout where
  /-- What stands before each part inside brackets, and before the bracket that closes them, so many levels in. -/
  gap : Nat → List Char
  /-- What stands between a colon and a value. -/
  colon : List Char
  isSpace_gap : ∀ level, ∀ c ∈ gap level, Written.isSpace c = true
  isSpace_colon : ∀ c ∈ colon, Written.isSpace c = true

namespace Layout

def tight : Layout := ⟨fun _ => [], [], by simp, by simp⟩

theorem isSpace_lineBreak (level : Nat) : ∀ c ∈ lineBreak level, Written.isSpace c = true := by
  intro c hc
  rcases List.mem_cons.mp hc with rfl | hc
  · decide
  · rw [List.eq_of_mem_replicate hc]
    decide

def lined : Layout := ⟨lineBreak, [' '], isSpace_lineBreak, List.forall_mem_singleton.mpr (by decide)⟩

variable (g : Layout)

def bracketed (level : Nat) (left right : Char) (parts : List (List Char)) : List Char :=
  if parts = [] then [left, right]
  else left :: (g.gap (level + 1) ++ separated (',' :: g.gap (level + 1)) parts ++ g.gap level ++ [right])

mutual

/-- The text of a value, spread out from so many levels in. -/
def spread (level : Nat) : Json → List Char
  | .array items => g.bracketed level '[' ']' (itemTexts (level + 1) items)
  | .object members => g.bracketed level '\x7b' '\x7d' (memberTexts (level + 1) members)
  | v => v.compact

def itemTexts (level : Nat) : List Json → List (List Char)
  | [] => []
  | x :: rest => spread level x :: itemTexts level rest

def memberTexts (level : Nat) : List (String × Json) → List (List Char)
  | [] => []
  | (k, x) :: rest => (quote k.toList ++ ':' :: (g.colon ++ spread level x)) :: memberTexts level rest

end

/-! ### The two layouts -/

mutual

theorem spread_tight (level : Nat) (v : Json) : tight.spread level v = v.compact := by
  cases v with
  | array items =>
    rw [spread, compact, itemTexts_tight, bracketed]
    cases items <;> simp [compactItems, separated, tight]
  | object members =>
    rw [spread, compact, memberTexts_tight, bracketed]
    cases members <;> simp [compactMembers, separated, tight]
  | _ => rfl

theorem itemTexts_tight (level : Nat) (items : List Json) : tight.itemTexts level items = compactItems items := by
  match items with
  | [] => rfl
  | x :: rest => rw [itemTexts, compactItems, spread_tight, itemTexts_tight]

theorem memberTexts_tight (level : Nat) (members : List (String × Json)) :
    tight.memberTexts level members = compactMembers members := by
  match members with
  | [] => rfl
  | (k, x) :: rest =>
    rw [memberTexts, compactMembers, spread_tight, memberTexts_tight]
    rfl

end

mutual

theorem spread_lined (level : Nat) (v : Json) : lined.spread level v = v.prettyAt level := by
  cases v with
  | array items =>
    rw [spread, prettyAt, itemTexts_lined]
    rfl
  | object members =>
    rw [spread, prettyAt, memberTexts_lined]
    rfl
  | _ => rfl

theorem itemTexts_lined (level : Nat) (items : List Json) : lined.itemTexts level items = prettyItems level items := by
  match items with
  | [] => rfl
  | x :: rest => rw [itemTexts, prettyItems, spread_lined, itemTexts_lined]

theorem memberTexts_lined (level : Nat) (members : List (String × Json)) :
    lined.memberTexts level members = prettyMembers level members := by
  match members with
  | [] => rfl
  | (k, x) :: rest =>
    rw [memberTexts, prettyMembers, spread_lined, memberTexts_lined, List.append_assoc]
    rfl

end

end Layout

end TicketDesk.Json
