import Mathlib.Data.List.Infix
import TicketDesk.Screen.Listing

/-! # The selected item of a listing

A listing whose items have a line each shows its selected item whenever it has a row to show anything in. The item is
drawn as selected, and those above and below it are not. -/

namespace TicketDesk.Screen

namespace Listing

variable {items : List Item} {rows seen : Nat}

theorem fitting_of_lines (h : ∀ item ∈ items, item.lines.length = 1) (rows : Nat) :
    fitting rows items = min rows items.length := by
  induction items generalizing rows with
  | nil => simp [fitting]
  | cons item rest ih =>
    rw [List.forall_mem_cons] at h
    rw [fitting, h.1, ih h.2, List.length_cons]
    split <;> omega

/-- The item to be seen is among those that are shown. -/
theorem shown_of_lines (h : ∀ item ∈ items, item.lines.length = 1) (hrows : 0 < rows) (hseen : seen < items.length) :
    (shown rows items seen).1 ≤ seen ∧ seen < (shown rows items seen).1 + (shown rows items seen).2 := by
  have hend : fittingEnd rows (items.take (seen + 1)) = min rows (seen + 1) := by
    have hlines : ∀ item ∈ (items.take (seen + 1)).reverse, item.lines.length = 1 :=
      fun item hitem => h item (List.mem_of_mem_take (List.mem_reverse.mp hitem))
    rw [fittingEnd, fitting_of_lines hlines, List.length_reverse, List.length_take, Nat.min_eq_left hseen]
  unfold shown
  dsimp only
  split
  · next hfit => exact ⟨Nat.zero_le _, by simpa using hfit⟩
  · rw [hend]
    constructor
    · show seen + 1 - min rows (seen + 1) ≤ seen
      omega
    · show seen < seen + 1 - min rows (seen + 1) + min rows (seen + 1)
      omega

end Listing

namespace Grid

variable {α : Type} {g : Grid} {a : Area} {items above below : List Item} {selected y i first count : Nat}

/-- Draws items below each other, none of them as selected. -/
def putUnselected (g : Grid) (a : Area) (y : Nat) : List Item → Grid
  | [] => g
  | item :: rest => putUnselected (g.putItem a y item true false) a (y + item.lines.length) rest

theorem putItems_of_not_selected (h : selected < i ∨ i + items.length ≤ selected) :
    g.putItems a (some selected) y i items = g.putUnselected a y items := by
  induction items generalizing g y i with
  | nil => rfl
  | cons item rest ih =>
    rw [List.length_cons] at h
    have hne : (some selected == some i) = false := by
      simp only [beq_eq_false_iff_ne, ne_eq, Option.some.injEq]
      omega
    rw [putItems, hne, ih (by omega)]
    rfl

theorem putItems_append (h : ∀ item ∈ above, item.lines.length = 1) (selected : Option Nat) (y i : Nat) :
    g.putItems a selected y i (above ++ below) =
      (g.putItems a selected y i above).putItems a selected (y + above.length) (i + above.length) below := by
  induction above generalizing g y i with
  | nil => rfl
  | cons item rest ih =>
    rw [List.forall_mem_cons] at h
    rw [List.cons_append, putItems, ih h.2, putItems, h.1, List.length_cons, Nat.add_assoc y, Nat.add_assoc i,
      Nat.add_comm 1]

/-- The items between two positions are those above and below one of them and that one. -/
theorem exists_window {xs : List α} {x : α} (hx : xs[i]? = some x) (hfirst : first ≤ i) (hlast : i < first + count) :
    ∃ above below, (xs.drop first).take count = above ++ x :: below ∧ first + above.length = i := by
  have hget : ((xs.drop first).take count)[i - first]? = some x := by
    rw [List.getElem?_take_of_lt (by omega), List.getElem?_drop, ← hx]
    congr 1
    omega
  obtain ⟨hlt, hget⟩ := List.getElem?_eq_some_iff.mp hget
  refine ⟨((xs.drop first).take count).take (i - first), ((xs.drop first).take count).drop (i - first + 1), ?_, ?_⟩
  · rw [← hget, ← List.drop_eq_getElem_cons hlt, List.take_append_drop]
  · rw [List.length_take, Nat.min_eq_left (Nat.le_of_lt hlt)]
    omega

/-- A listing is its panel with items around the selected one, which alone is drawn as selected. -/
theorem putListing_selected {l : Listing} {f : α → Item} {xs : List α} {x : α} (hitems : l.items = xs.map f)
    (hlines : ∀ x, (f x).lines.length = 1) (hselected : l.selected = some i) (hx : xs[i]? = some x)
    (hroom : a.inner.isEmpty = false) (g : Grid) :
    ∃ above below, (above ++ x :: below) <:+: xs ∧
      g.putListing a l =
        (((g.putPanel a l.panel).putUnselected a.inner a.inner.y (above.map f)).putItem a.inner
          (a.inner.y + above.length) (f x) true true).putUnselected a.inner (a.inner.y + above.length + 1)
          (below.map f) := by
  obtain ⟨hi, -⟩ := List.getElem?_eq_some_iff.mp hx
  have hrows : 0 < a.inner.height := by
    simp only [Area.isEmpty, Bool.or_eq_false_iff, beq_eq_false_iff_ne] at hroom
    omega
  have hone : ∀ ys : List α, ∀ item ∈ ys.map f, item.lines.length = 1 := by
    intro ys item hitem
    obtain ⟨y, -, rfl⟩ := List.mem_map.mp hitem
    exact hlines y
  have hcut : min i (xs.length - 1) = i := by omega
  obtain ⟨hfirst, hlast⟩ := Listing.shown_of_lines (hone xs) hrows (by rwa [List.length_map])
  obtain ⟨above, below, hwindow, habove⟩ := exists_window hx hfirst hlast
  refine ⟨above, below, ?_, ?_⟩
  · rw [← hwindow]
    exact List.IsInfix.trans (List.IsPrefix.isInfix <| List.take_prefix _ _) (List.drop_suffix _ _).isInfix
  have hdrawn : g.putListing a l = (g.putPanel a l.panel).putItems a.inner (some i) a.inner.y
      (Listing.shown a.inner.height (xs.map f) i).1 (above.map f ++ f x :: below.map f) := by
    rw [← List.map_cons, ← List.map_append, ← hwindow, List.map_take, List.map_drop]
    have hsome : xs ≠ [] := List.ne_nil_of_length_pos (by omega)
    simp [putListing, hroom, hitems, hselected, hcut, hsome]
  have hbefore : (g.putPanel a l.panel).putItems a.inner (some i) a.inner.y
      (Listing.shown a.inner.height (xs.map f) i).1 (above.map f) =
      (g.putPanel a l.panel).putUnselected a.inner a.inner.y (above.map f) :=
    putItems_of_not_selected (Or.inr (by rw [List.length_map]; omega))
  rw [hdrawn, putItems_append (hone above), hbefore, List.length_map, habove, putItems, beq_self_eq_true,
    Option.isSome_some, hlines x, putItems_of_not_selected (Or.inl (Nat.lt_succ_self i))]

end Grid

end TicketDesk.Screen
