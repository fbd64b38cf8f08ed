import TicketDesk.Proofs.Json.Layout
import TicketDesk.Proofs.Json.Quoted
import TicketDesk.Proofs.Json.Real
import TicketDesk.Proofs.Json.Shape

/-! # Values read back

The compact text of a value is the text of one document (`Written.ofJson`), at any depth and with the
members in any order, and different values are different documents. A document has its value again when
the value is exact, its objects are sorted and it nests no deeper than it may. -/

namespace TicketDesk.Json

namespace Written

mutual

/-- The document that the compact text of a value is. -/
def ofJson : Json → Written
  | .null => .null
  | .bool b => .bool b
  | .whole n => .number n.numeral
  | .real x => .number x.numeral
  | .text s => .text (some s)
  | .array items => .array (ofJsonItems items)
  | .object members => .object (ofJsonMembers members)

def ofJsonItems : List Json → List Written
  | [] => []
  | x :: rest => ofJson x :: ofJsonItems rest

def ofJsonMembers : List (String × Json) → List (Option String × Written)
  | [] => []
  | (k, x) :: rest => (some k, ofJson x) :: ofJsonMembers rest

end

theorem ofJsonItems_eq_map (xs : List Json) : ofJsonItems xs = xs.map ofJson := by
  induction xs with
  | nil => rfl
  | cons x xs ih => rw [ofJsonItems, ih, List.map_cons]

theorem ofJsonMembers_eq_map (ms : List (String × Json)) :
    ofJsonMembers ms = ms.map fun m => (some m.1, ofJson m.2) := by
  induction ms with
  | nil => rfl
  | cons m ms ih => rw [ofJsonMembers, ih, List.map_cons]

theorem text?_quoted (s : String) (rest : List Char) :
    text? (s.toList.flatMap escape ++ '"' :: rest) = some (some s, rest) := by
  simp [text?, pieces?_flatMap_escape, characters?_map_piece]

end Written

/-! ### Where a text begins -/

theorem numeral_head {c : Char} (h : c.isDigit = true ∨ c = '-') :
    Written.isSpace c = false ∧ c ∉ ['n', 't', 'f', '"', '[', ']', '\x7b'] := by
  rcases h with h | rfl
  · simp only [Written.isSpace, Bool.or_eq_false_iff, decide_eq_false_iff_not, List.mem_cons, List.not_mem_nil, or_false,
      not_or]
    refine ⟨⟨⟨⟨?_, ?_⟩, ?_⟩, ?_⟩, ?_, ?_, ?_, ?_, ?_, ?_, ?_⟩ <;> rintro rfl <;> exact absurd h (by decide)
  · decide

theorem Layout.bracketed_eq_cons (g : Layout) (level : Nat) (left right : Char) (parts : List (List Char)) :
    ∃ cs, g.bracketed level left right parts = left :: cs := by
  rw [bracketed]
  split <;> exact ⟨_, rfl⟩

/-- The text of a value begins with a character that is neither a space nor a closing bracket. -/
theorem Layout.spread_eq_cons (g : Layout) (level : Nat) (v : Json) :
    ∃ c cs, g.spread level v = c :: cs ∧ Written.isSpace c = false ∧ c ≠ ']' := by
  have hnumeral {n : Numeral} (h : n.WellFormed) : ∃ c cs, n.text = c :: cs ∧ Written.isSpace c = false ∧ c ≠ ']' := by
    obtain ⟨c, cs, hcs, hc⟩ := h.text_eq_cons
    obtain ⟨hspace, hother⟩ := numeral_head hc
    exact ⟨c, cs, hcs, hspace, fun hbracket => hother (by simp [hbracket])⟩
  cases v with
  | null => exact ⟨'n', _, rfl, by decide, by decide⟩
  | bool b => cases b <;> exact ⟨_, _, rfl, by decide, by decide⟩
  | whole n =>
    have h := hnumeral n.wellFormed_numeral
    rwa [n.text_numeral] at h
  | real x =>
    have h := hnumeral x.wellFormed_numeral
    rwa [← x.showReal_eq_text] at h
  | text s => exact ⟨'"', _, rfl, by decide, by decide⟩
  | array items =>
    obtain ⟨cs, hcs⟩ := g.bracketed_eq_cons level '[' ']' (g.itemTexts (level + 1) items)
    exact ⟨'[', cs, hcs, by decide, by decide⟩
  | object members =>
    obtain ⟨cs, hcs⟩ := g.bracketed_eq_cons level '\x7b' '\x7d' (g.memberTexts (level + 1) members)
    exact ⟨'\x7b', cs, hcs, by decide, by decide⟩

/-! ### Spaces -/

theorem Written.skip_of_not_space {c : Char} {cs : List Char} (h : isSpace c = false) : skip (c :: cs) = c :: cs := by
  simp [skip, h]

section Spaces

variable {spaces : List Char} (h : ∀ c ∈ spaces, Written.isSpace c = true)
include h

theorem EndsNumeral.spaces_append {rest : List Char} (hr : EndsNumeral rest) : EndsNumeral (spaces ++ rest) := by
  cases spaces with
  | nil => exact hr
  | cons c cs =>
    have hc := h c List.mem_cons_self
    simp only [Written.isSpace, Bool.or_eq_true, decide_eq_true_eq] at hc
    rcases hc with ((rfl | rfl) | rfl) | rfl <;> exact .cons (by decide) (by decide) (by decide) (by decide)

namespace Written

variable (fuel : Nat) (cs : List Char)

theorem skip_spaces_append : skip (spaces ++ cs) = skip cs := List.dropWhile_append_of_pos h

theorem value_spaces_append : value fuel (spaces ++ cs) = value fuel cs := by
  cases fuel with
  | zero => rfl
  | succ fuel => simp only [value, skip_spaces_append h]

theorem items_spaces_append : items fuel (spaces ++ cs) = items fuel cs := by
  cases fuel with
  | zero => rfl
  | succ fuel => simp only [items, value_spaces_append h]

theorem members_spaces_append : members fuel (spaces ++ cs) = members fuel cs := by
  cases fuel with
  | zero => rfl
  | succ fuel => simp only [members, skip_spaces_append h]

end Written

end Spaces

/-! ### Reading what was written -/

theorem Written.value_numeral {n : Numeral} (h : n.WellFormed) {fuel : Nat} {rest : List Char} (hr : EndsNumeral rest) :
    value (fuel + 1) (n.text ++ rest) = some (.number n, rest) := by
  obtain ⟨c, cs, hcs, hc⟩ := h.text_eq_cons
  have hread := numeral?_text hr h
  obtain ⟨hspace, hother⟩ := numeral_head hc
  rw [hcs, List.cons_append] at hread ⊢
  rw [value, skip_of_not_space hspace]
  split
  case h_7 => simp [number?, hread]
  all_goals
    rename_i heq
    obtain ⟨rfl, -⟩ := List.cons.inj heq
    simp at hother

namespace Written

open Layout

variable (g : Layout)

-- Two units of fuel for each character are enough: every value, item and member takes one or two, and its
-- text has a character at least. The three statements go down together with the fuel.
mutual

theorem value_spread (v : Json) (level fuel : Nat) (rest : List Char)
    (hf : 2 * (g.spread level v).length ≤ fuel) (hr : EndsNumeral rest) :
    value fuel (g.spread level v ++ rest) = some (ofJson v, rest) := by
  obtain ⟨fuel, rfl⟩ : ∃ n, fuel = n + 1 := by
    obtain ⟨c, cs, hcs, -⟩ := g.spread_eq_cons level v
    rw [hcs, List.length_cons] at hf
    exact ⟨fuel - 1, by omega⟩
  cases v with
  | null => simp [spread, compact, value, skip, isSpace, ofJson]
  | bool b => cases b <;> simp [spread, compact, value, skip, isSpace, ofJson]
  | whole n =>
    rw [spread, compact, ofJson, ← n.text_numeral]
    exact value_numeral n.wellFormed_numeral hr
    all_goals simp
  | real x =>
    rw [spread, compact, ofJson, x.showReal_eq_text]
    exact value_numeral x.wellFormed_numeral hr
    all_goals simp
  | text s => simp [spread, compact, quote, value, skip, isSpace, ofJson, text?_quoted]
  | array xs =>
    cases xs with
    | nil => simp [spread, itemTexts, bracketed, value, skip, isSpace, ofJson, ofJsonItems]
    | cons x xs =>
      have hshape : g.spread level (.array (x :: xs)) ++ rest = '[' :: (g.gap (level + 1) ++
          (separated (',' :: g.gap (level + 1)) (g.itemTexts (level + 1) (x :: xs)) ++ (g.gap level ++ ']' :: rest))) := by
        simp [spread, itemTexts, bracketed]
      have hread := items_spread x xs (level + 1) (g.isSpace_gap level) fuel rest
        (by simp only [spread, itemTexts, bracketed] at hf ⊢; simp at hf; omega)
      -- The list is not taken for an empty one: its first item does not begin with a bracket.
      obtain ⟨c, cs, hcs, hspace, hbracket⟩ : ∃ c cs,
          separated (',' :: g.gap (level + 1)) (g.itemTexts (level + 1) (x :: xs)) = c :: cs ∧
          isSpace c = false ∧ c ≠ ']' := by
        obtain ⟨c, cs, hcs, hc⟩ := g.spread_eq_cons (level + 1) x
        cases xs <;> exact ⟨c, _, by simp [itemTexts, separated, hcs]; rfl, hc⟩
      rw [hshape, value, skip_of_not_space (by decide)]
      simp only [skip_spaces_append (g.isSpace_gap (level + 1)), items_spaces_append (g.isSpace_gap (level + 1)), hread]
      rw [hcs, List.cons_append, skip_of_not_space hspace]
      split
      · rename_i heq
        exact absurd (List.cons.inj heq).1 hbracket
      · rw [ofJson]
        rfl
  | object ms =>
    cases ms with
    | nil => simp [spread, memberTexts, bracketed, value, skip, isSpace, ofJson, ofJsonMembers]
    | cons m ms =>
      have hshape : g.spread level (.object (m :: ms)) ++ rest = '\x7b' :: (g.gap (level + 1) ++
          (separated (',' :: g.gap (level + 1)) (g.memberTexts (level + 1) (m :: ms)) ++
            (g.gap level ++ '\x7d' :: rest))) := by
        simp [spread, memberTexts, bracketed]
      have hread := members_spread m ms (level + 1) (g.isSpace_gap level) fuel rest
        (by simp only [spread, memberTexts, bracketed] at hf ⊢; simp at hf; omega)
      obtain ⟨cs, hcs⟩ : ∃ cs,
          separated (',' :: g.gap (level + 1)) (g.memberTexts (level + 1) (m :: ms)) = '"' :: cs := by
        cases ms <;> exact ⟨_, by simp [memberTexts, separated, quote]; rfl⟩
      rw [hshape, value, skip_of_not_space (by decide)]
      simp only [skip_spaces_append (g.isSpace_gap (level + 1)), members_spaces_append (g.isSpace_gap (level + 1)), hread]
      rw [hcs, List.cons_append, skip_of_not_space (by decide), ofJson]
      rfl
termination_by fuel

theorem items_spread (x : Json) (xs : List Json) (level : Nat) {spaces : List Char}
    (hspaces : ∀ c ∈ spaces, isSpace c = true) (fuel : Nat) (rest : List Char)
    (hf : 2 * (separated (',' :: g.gap level) (g.itemTexts level (x :: xs))).length + 1 ≤ fuel) :
    items fuel (separated (',' :: g.gap level) (g.itemTexts level (x :: xs)) ++ (spaces ++ ']' :: rest)) =
      some (ofJsonItems (x :: xs), rest) := by
  obtain ⟨fuel, rfl⟩ : ∃ n, fuel = n + 1 := ⟨fuel - 1, by omega⟩
  cases xs with
  | nil =>
    simp only [itemTexts, separated] at hf ⊢
    have hx := value_spread x level fuel (spaces ++ ']' :: rest) (by omega)
      (.spaces_append hspaces (.cons (by decide) (by decide) (by decide) (by decide)))
    have hend : skip (spaces ++ ']' :: rest) = ']' :: rest :=
      (skip_spaces_append hspaces _).trans (skip_of_not_space (by decide))
    simp [items, hx, hend, ofJsonItems]
  | cons y ys =>
    have hsep : separated (',' :: g.gap level) (g.itemTexts level (x :: y :: ys)) =
        g.spread level x ++ ',' :: (g.gap level ++ separated (',' :: g.gap level) (g.itemTexts level (y :: ys))) := by
      simp [itemTexts, separated]
    rw [hsep] at hf ⊢
    simp only [List.length_append, List.length_cons] at hf
    have hxs := items_spread y ys level hspaces fuel rest (by omega)
    have hx := value_spread x level fuel (',' :: (g.gap level ++
      (separated (',' :: g.gap level) (g.itemTexts level (y :: ys)) ++ (spaces ++ ']' :: rest)))) (by omega)
      (.cons (by decide) (by decide) (by decide) (by decide))
    simp [items, hx, hxs, items_spaces_append (g.isSpace_gap level), skip, isSpace, ofJsonItems]
termination_by fuel

theorem members_spread (m : String × Json) (ms : List (String × Json)) (level : Nat)
    {spaces : List Char} (hspaces : ∀ c ∈ spaces, isSpace c = true) (fuel : Nat) (rest : List Char)
    (hf : 2 * (separated (',' :: g.gap level) (g.memberTexts level (m :: ms))).length + 1 ≤ fuel) :
    members fuel (separated (',' :: g.gap level) (g.memberTexts level (m :: ms)) ++ (spaces ++ '\x7d' :: rest)) =
      some (ofJsonMembers (m :: ms), rest) := by
  obtain ⟨fuel, rfl⟩ : ∃ n, fuel = n + 1 := ⟨fuel - 1, by omega⟩
  obtain ⟨k, x⟩ := m
  cases ms with
  | nil =>
    simp only [memberTexts, separated, quote, List.length_append, List.length_cons] at hf ⊢
    have hx := value_spread x level fuel (spaces ++ '\x7d' :: rest) (by omega)
      (.spaces_append hspaces (.cons (by decide) (by decide) (by decide) (by decide)))
    have hend : skip (spaces ++ '\x7d' :: rest) = '\x7d' :: rest :=
      (skip_spaces_append hspaces _).trans (skip_of_not_space (by decide))
    simp [members, skip_of_not_space (show isSpace '"' = false by decide), text?_quoted,
      skip_of_not_space (show isSpace ':' = false by decide), value_spaces_append g.isSpace_colon, hx, hend, ofJsonMembers]
  | cons n ns =>
    have hsep : separated (',' :: g.gap level) (g.memberTexts level ((k, x) :: n :: ns)) =
        quote k.toList ++ ':' :: (g.colon ++ g.spread level x) ++
          ',' :: (g.gap level ++ separated (',' :: g.gap level) (g.memberTexts level (n :: ns))) := by
      simp [memberTexts, separated]
    rw [hsep] at hf ⊢
    simp only [quote, List.length_append, List.length_cons] at hf
    have hxs := members_spread n ns level hspaces fuel rest (by omega)
    have hx := value_spread x level fuel (',' :: (g.gap level ++
      (separated (',' :: g.gap level) (g.memberTexts level (n :: ns)) ++ (spaces ++ '\x7d' :: rest)))) (by omega)
      (.cons (by decide) (by decide) (by decide) (by decide))
    simp [members, quote, text?_quoted, value_spaces_append g.isSpace_colon, hx, hxs,
      members_spaces_append (g.isSpace_gap level), skip, isSpace, ofJsonMembers]
termination_by fuel

end

/-- In every layout the text of a value is that of its document. -/
theorem ofChars?_spread (v : Json) (level : Nat) : ofChars? (g.spread level v) = some (ofJson v) := by
  have hread := value_spread g v level (2 * (g.spread level v).length + 2) [] (by omega) .nil
  rw [List.append_nil] at hread
  simp [ofChars?, hread, skip]

theorem ofText?_write (v : Json) : ofText? v.write = some (ofJson v) := by
  rw [ofText?, write, String.toList_ofList, ← spread_tight 0]
  exact ofChars?_spread tight v 0

theorem ofText?_pretty (v : Json) : ofText? v.pretty = some (ofJson v) := by
  rw [ofText?, pretty, String.toList_ofList, ← spread_lined]
  exact ofChars?_spread lined v 0

/-! ### Different values are different documents -/

mutual

theorem eq_of_ofJson {v w : Json} (h : ofJson v = ofJson w) : v = w := by
  cases v with
  | null => cases w <;> simp_all [ofJson]
  | bool b => cases w <;> simp_all [ofJson]
  | whole n =>
    cases w with
    | whole k => exact congrArg _ (Whole.numeral_injective (by simpa [ofJson] using h))
    | real y => exact absurd (by simpa [ofJson] using h.symm) (y.numeral_ne_whole n)
    | _ => simp [ofJson] at h
  | real x =>
    cases w with
    | whole k => exact absurd (by simpa [ofJson] using h) (x.numeral_ne_whole k)
    | real y => exact congrArg _ (Binary64.numeral_injective (by simpa [ofJson] using h))
    | _ => simp [ofJson] at h
  | text s => cases w <;> simp_all [ofJson]
  | array xs =>
    cases w with
    | array ys => exact congrArg _ (eq_of_ofJsonItems (by simpa [ofJson] using h))
    | _ => simp [ofJson] at h
  | object ms =>
    cases w with
    | object ns => exact congrArg _ (eq_of_ofJsonMembers (by simpa [ofJson] using h))
    | _ => simp [ofJson] at h

theorem eq_of_ofJsonItems {xs ys : List Json} (h : ofJsonItems xs = ofJsonItems ys) : xs = ys := by
  match xs, ys with
  | [], [] => rfl
  | [], _ :: _ => cases h
  | _ :: _, [] => cases h
  | x :: xs, y :: ys =>
    obtain ⟨hx, hxs⟩ := List.cons.inj h
    rw [eq_of_ofJson hx, eq_of_ofJsonItems hxs]

theorem eq_of_ofJsonMembers {ms ns : List (String × Json)} (h : ofJsonMembers ms = ofJsonMembers ns) : ms = ns := by
  match ms, ns with
  | [], [] => rfl
  | [], _ :: _ => cases h
  | _ :: _, [] => cases h
  | (k, x) :: ms, (l, y) :: ns =>
    obtain ⟨hm, hms⟩ := List.cons.inj h
    obtain ⟨hk, hx⟩ := Prod.mk.inj hm
    rw [Option.some.inj hk, eq_of_ofJson hx, eq_of_ofJsonMembers hms]

end

/-! ### The value of what was written -/

mutual

/-- A value that nests no deeper than it may is the value of its document again. -/
theorem value?_ofJson {depth : Nat} {v : Json} (h : v.Portable depth) : value? depth (ofJson v) = some v := by
  obtain ⟨hexact, hsorted, hshallow⟩ := h
  cases v with
  | null => rfl
  | bool b => rfl
  | whole n => rw [ofJson, value?, n.value?_numeral]
  | real x => simp [isExact] at hexact
  | text s => rfl
  | array xs =>
    rw [Json.depth] at hshallow
    obtain ⟨depth, rfl⟩ : ∃ n, depth = n + 1 := ⟨depth - 1, by omega⟩
    have hall : values? depth (ofJsonItems xs) = some xs := values?_ofJsonItems fun x hx =>
      ⟨exactItems_iff.mp hexact x hx, sortedItems_iff.mp hsorted x hx,
        depthItems_le_iff.mp (Nat.le_of_succ_le_succ hshallow) x hx⟩
    rw [ofJson, value?, hall]
    rfl
  | object ms =>
    rw [Json.depth] at hshallow
    rw [isSorted, Bool.and_eq_true, decide_eq_true_iff] at hsorted
    obtain ⟨depth, rfl⟩ : ∃ n, depth = n + 1 := ⟨depth - 1, by omega⟩
    have hall : memberValues? depth (ofJsonMembers ms) = some ms := memberValues?_ofJsonMembers fun m hm =>
      ⟨exactMembers_iff.mp hexact m hm, sortedMembers_iff.mp hsorted.2 m hm,
        depthMembers_le_iff.mp (Nat.le_of_succ_le_succ hshallow) m hm⟩
    rw [ofJson, value?, hall, Option.map_some, Json.ofMembers, sortMembers_of_pairwise hsorted.1]

theorem values?_ofJsonItems {depth : Nat} {xs : List Json} (h : ∀ x ∈ xs, x.Portable depth) :
    values? depth (ofJsonItems xs) = some xs := by
  match xs with
  | [] => rfl
  | x :: xs =>
    have hx := value?_ofJson (h x List.mem_cons_self)
    have hxs := values?_ofJsonItems fun y hy => h y (List.mem_cons_of_mem _ hy)
    simp [ofJsonItems, values?, hx, hxs]

theorem memberValues?_ofJsonMembers {depth : Nat} {ms : List (String × Json)} (h : ∀ m ∈ ms, m.2.Portable depth) :
    memberValues? depth (ofJsonMembers ms) = some ms := by
  match ms with
  | [] => rfl
  | (k, x) :: ms =>
    have hx := value?_ofJson (h (k, x) List.mem_cons_self)
    have hms := memberValues?_ofJsonMembers fun y hy => h y (List.mem_cons_of_mem _ hy)
    simp [ofJsonMembers, memberValues?, hx, hms]

end

-- The statements above say that a shallow value comes back, these that no other value does: each container of
-- the document uses up one level, whatever it holds.
mutual

/-- Where a document has a value, what it was made of nests no deeper than it may. -/
theorem depth_le_of_value?_ofJson {depth : Nat} {v u : Json} (h : value? depth (ofJson v) = some u) : v.depth ≤ depth := by
  cases v with
  | array xs =>
    cases depth with
    | zero => cases h
    | succ depth =>
      rw [ofJson, value?] at h
      obtain ⟨us, hus, -⟩ := Option.map_eq_some_iff.mp h
      rw [Json.depth]
      exact Nat.succ_le_succ (depthItems_le_iff.mpr (depth_le_of_values?_ofJsonItems hus))
  | object ms =>
    cases depth with
    | zero => cases h
    | succ depth =>
      rw [ofJson, value?] at h
      obtain ⟨us, hus, -⟩ := Option.map_eq_some_iff.mp h
      rw [Json.depth]
      exact Nat.succ_le_succ (depthMembers_le_iff.mpr (depth_le_of_memberValues?_ofJsonMembers hus))
  | _ => exact Nat.zero_le _

theorem depth_le_of_values?_ofJsonItems {depth : Nat} {xs us : List Json}
    (h : values? depth (ofJsonItems xs) = some us) : ∀ x ∈ xs, x.depth ≤ depth := by
  match xs with
  | [] => exact fun _ hx => by cases hx
  | x :: xs =>
    simp only [ofJsonItems, values?, Option.bind_eq_bind, Option.bind_eq_some_iff] at h
    obtain ⟨v, hv, vs, hvs, -⟩ := h
    exact List.forall_mem_cons.mpr ⟨depth_le_of_value?_ofJson hv, depth_le_of_values?_ofJsonItems hvs⟩

theorem depth_le_of_memberValues?_ofJsonMembers {depth : Nat} {ms us : List (String × Json)}
    (h : memberValues? depth (ofJsonMembers ms) = some us) : ∀ m ∈ ms, m.2.depth ≤ depth := by
  match ms with
  | [] => exact fun _ hm => by cases hm
  | (k, x) :: ms =>
    simp only [ofJsonMembers, memberValues?, Option.bind_eq_bind, Option.bind_eq_some_iff] at h
    obtain ⟨-, -, v, hv, vs, hvs, -⟩ := h
    exact List.forall_mem_cons.mpr ⟨depth_le_of_value?_ofJson hv, depth_le_of_memberValues?_ofJsonMembers hvs⟩

end

end Written

theorem write_ne_empty (v : Json) : v.write ≠ "" := by
  intro h
  have hread := Written.ofText?_write v
  rw [h] at hread
  cases hread

/-- No two values have one compact text. -/
theorem write_injective : Function.Injective write := by
  intro v w h
  have hread := Written.ofText?_write v
  rw [h, Written.ofText?_write w] at hread
  exact (Written.eq_of_ofJson (Option.some.inj hread)).symm

/-- A value that nests no deeper than a document may is read back from its compact text. -/
theorem read?_write {v : Json} (h : v.Portable nesting) : read? v.write = some v := by
  rw [read?, Written.ofText?_write v, Option.bind_some, Written.value?_ofJson h]

end TicketDesk.Json
