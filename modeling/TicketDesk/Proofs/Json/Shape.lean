import TicketDesk.Json.Written

/-! # Shapes of values

Two properties decide whether a value comes back from its text: it is exact when none of its numbers
is a binary64 number, and it is sorted when every object in it lists its keys in increasing order.
Sorting members leaves sorted members as they are, and whatever is read is sorted. -/

namespace TicketDesk.Json

mutual

/-- Whether no number in a value is a binary64 number. -/
def isExact : Json → Bool
  | .real _ => false
  | .array items => exactItems items
  | .object members => exactMembers members
  | _ => true

def exactItems : List Json → Bool
  | [] => true
  | x :: rest => x.isExact && exactItems rest

def exactMembers : List (String × Json) → Bool
  | [] => true
  | (_, x) :: rest => x.isExact && exactMembers rest

end

mutual

/-- Whether the objects in a value list their keys in increasing order, each key once. -/
def isSorted : Json → Bool
  | .array items => sortedItems items
  | .object members => decide ((members.map (·.1)).Pairwise (· < ·)) && sortedMembers members
  | _ => true

def sortedItems : List Json → Bool
  | [] => true
  | x :: rest => x.isSorted && sortedItems rest

def sortedMembers : List (String × Json) → Bool
  | [] => true
  | (_, x) :: rest => x.isSorted && sortedMembers rest

end

/-- A value that is read from a text can also be written where `depth` containers may be opened, and
    comes back from there. -/
structure Portable (depth : Nat) (v : Json) : Prop where
  exact : v.isExact = true
  sorted : v.isSorted = true
  shallow : v.depth ≤ depth

/-! ### Sorting members -/

theorem insertMember_of_lt {key : String} {v : Json} :
    ∀ {ms : List (String × Json)}, (∀ m ∈ ms, m.1 < key) → insertMember key v ms = ms ++ [(key, v)]
  | [], _ => rfl
  | (k, w) :: rest, h => by
    have hk : k < key := h (k, w) List.mem_cons_self
    have hne : key ≠ k := fun he => String.lt_irrefl _ (he ▸ hk)
    have hnot : ¬key < k := fun hlt => String.lt_irrefl _ (String.lt_trans hlt hk)
    rw [insertMember, if_neg hne, if_neg hnot, insertMember_of_lt fun m hm => h m (List.mem_cons_of_mem _ hm)]
    rfl

theorem foldl_insertMember {ms : List (String × Json)} :
    ∀ {sorted : List (String × Json)}, ((sorted ++ ms).map (·.1)).Pairwise (· < ·) →
      ms.foldl (fun sorted m => insertMember m.1 m.2 sorted) sorted = sorted ++ ms := by
  induction ms with
  | nil => intro sorted _; simp
  | cons m ms ih =>
    intro sorted h
    have hlt : ∀ x ∈ sorted, x.1 < m.1 := by
      simp only [List.map_append, List.pairwise_append] at h
      exact fun x hx => h.2.2 x.1 (List.mem_map_of_mem hx) m.1 (by simp)
    rw [List.foldl_cons, insertMember_of_lt hlt, ih (by simpa using h)]
    simp

theorem sortMembers_of_pairwise {ms : List (String × Json)} (h : (ms.map (·.1)).Pairwise (· < ·)) :
    sortMembers ms = ms :=
  @foldl_insertMember ms [] h

theorem mem_insertMember {key : String} {v : Json} {x : String × Json} :
    ∀ {ms : List (String × Json)}, x ∈ insertMember key v ms → x = (key, v) ∨ x ∈ ms
  | [], h => by simpa [insertMember] using h
  | (k, w) :: rest, h => by
    unfold insertMember at h
    split at h
    · rcases List.mem_cons.mp h with h | h
      · exact Or.inl h
      · exact Or.inr (List.mem_cons_of_mem _ h)
    · split at h
      · rcases List.mem_cons.mp h with h | h
        · exact Or.inl h
        · exact Or.inr h
      · rcases List.mem_cons.mp h with rfl | h
        · exact Or.inr List.mem_cons_self
        · rcases mem_insertMember h with h | h
          · exact Or.inl h
          · exact Or.inr (List.mem_cons_of_mem _ h)

theorem pairwise_insertMember {key : String} {v : Json} :
    ∀ {ms : List (String × Json)}, (ms.map (·.1)).Pairwise (· < ·) →
      ((insertMember key v ms).map (·.1)).Pairwise (· < ·)
  | [], _ => by simp [insertMember]
  | (k, w) :: rest, h => by
    have hh := h
    simp only [List.map_cons, List.pairwise_cons, List.mem_map] at h
    unfold insertMember
    split
    · rename_i heq
      subst heq
      simpa using hh
    · split
      · rename_i hlt
        simp only [List.map_cons, List.pairwise_cons]
        refine ⟨fun x hx => ?_, by simpa using h⟩
        rcases List.mem_cons.mp hx with rfl | hx
        · exact hlt
        · exact String.lt_trans hlt (h.1 x (List.mem_map.mp hx))
      · rename_i hne hnot
        simp only [List.map_cons, List.pairwise_cons, List.mem_map]
        refine ⟨?_, pairwise_insertMember h.2⟩
        rintro x ⟨m, hm, rfl⟩
        rcases mem_insertMember hm with rfl | hm
        · exact Std.lt_of_le_of_ne hnot (Ne.symm hne)
        · exact h.1 m.1 ⟨m, hm, rfl⟩

theorem mem_foldl_insertMember {x : String × Json} {ms : List (String × Json)} :
    ∀ {sorted : List (String × Json)}, x ∈ ms.foldl (fun sorted m => insertMember m.1 m.2 sorted) sorted →
      x ∈ sorted ∨ x ∈ ms := by
  induction ms with
  | nil => exact fun h => Or.inl h
  | cons m ms ih =>
    intro sorted h
    rcases ih h with h | h
    · rcases mem_insertMember h with rfl | h
      · exact Or.inr List.mem_cons_self
      · exact Or.inl h
    · exact Or.inr (List.mem_cons_of_mem _ h)

theorem mem_sortMembers {x : String × Json} {ms : List (String × Json)} (h : x ∈ sortMembers ms) : x ∈ ms := by
  rcases mem_foldl_insertMember h with h | h
  · cases h
  · exact h

theorem pairwise_sortMembers (ms : List (String × Json)) : ((sortMembers ms).map (·.1)).Pairwise (· < ·) := by
  have go : ∀ (ms sorted : List (String × Json)), (sorted.map (·.1)).Pairwise (· < ·) →
      ((ms.foldl (fun sorted m => insertMember m.1 m.2 sorted) sorted).map (·.1)).Pairwise (· < ·) := by
    intro ms
    induction ms with
    | nil => exact fun _ h => h
    | cons m ms ih => exact fun sorted h => ih _ (pairwise_insertMember h)
  exact go ms [] List.Pairwise.nil

/-- A member with a new key joins the others. -/
theorem perm_insertMember {key : String} {v : Json} :
    ∀ {ms : List (String × Json)}, key ∉ ms.map (·.1) → (insertMember key v ms).Perm ((key, v) :: ms)
  | [], _ => .refl _
  | (k, w) :: rest, h => by
    rw [List.map_cons, List.mem_cons, not_or] at h
    rw [insertMember, if_neg h.1]
    split
    · exact .refl _
    · exact ((perm_insertMember h.2).cons (k, w)).trans (.swap (key, v) (k, w) rest)

/-- Sorting loses no member when the keys are distinct. -/
theorem perm_sortMembers {ms : List (String × Json)} (h : (ms.map (·.1)).Nodup) : (sortMembers ms).Perm ms := by
  have go : ∀ (ms sorted : List (String × Json)), ((sorted ++ ms).map (·.1)).Nodup →
      (ms.foldl (fun sorted m => insertMember m.1 m.2 sorted) sorted).Perm (sorted ++ ms) := by
    intro ms
    induction ms with
    | nil => exact fun sorted _ => by simp
    | cons m ms ih =>
      intro sorted h
      have hmid : (m :: (sorted ++ ms)).Perm (sorted ++ m :: ms) := List.perm_middle.symm
      have hnodup : ((m :: (sorted ++ ms)).map (·.1)).Nodup := ((hmid.map (·.1)).nodup_iff).mpr h
      have hnew : m.1 ∉ sorted.map (·.1) := fun hmem =>
        (List.nodup_cons.mp hnodup).1 (by simpa using Or.inl (by simpa using hmem))
      have hins : (insertMember m.1 m.2 sorted).Perm (m :: sorted) := perm_insertMember hnew
      have hall : (insertMember m.1 m.2 sorted ++ ms).Perm (m :: (sorted ++ ms)) := hins.append_right ms
      exact (ih _ (((hall.map (·.1)).nodup_iff).mpr hnodup)).trans (hall.trans hmid)
  exact go ms [] h

/-! ### Shapes of members -/

theorem exactItems_iff {xs : List Json} : exactItems xs = true ↔ ∀ x ∈ xs, x.isExact = true := by
  induction xs with
  | nil => simp [exactItems]
  | cons x xs ih => simp [exactItems, ih]

theorem exactMembers_iff {ms : List (String × Json)} : exactMembers ms = true ↔ ∀ m ∈ ms, m.2.isExact = true := by
  induction ms with
  | nil => simp [exactMembers]
  | cons m ms ih => simp [exactMembers, ih]

theorem sortedItems_iff {xs : List Json} : sortedItems xs = true ↔ ∀ x ∈ xs, x.isSorted = true := by
  induction xs with
  | nil => simp [sortedItems]
  | cons x xs ih => simp [sortedItems, ih]

theorem sortedMembers_iff {ms : List (String × Json)} : sortedMembers ms = true ↔ ∀ m ∈ ms, m.2.isSorted = true := by
  induction ms with
  | nil => simp [sortedMembers]
  | cons m ms ih => simp [sortedMembers, ih]

theorem depthItems_le_iff {n : Nat} {xs : List Json} : depthItems xs ≤ n ↔ ∀ x ∈ xs, x.depth ≤ n := by
  induction xs with
  | nil => simp [depthItems]
  | cons x xs ih => rw [depthItems, Nat.max_le, ih, List.forall_mem_cons]

theorem depthMembers_le_iff {n : Nat} {ms : List (String × Json)} : depthMembers ms ≤ n ↔ ∀ m ∈ ms, m.2.depth ≤ n := by
  induction ms with
  | nil => simp [depthMembers]
  | cons m ms ih => rw [depthMembers, Nat.max_le, ih, List.forall_mem_cons]

/-- An object made of members in any order is sorted when their values are. -/
theorem isSorted_ofMembers {ms : List (String × Json)} (h : ∀ m ∈ ms, m.2.isSorted = true) :
    (ofMembers ms).isSorted = true := by
  rw [ofMembers, isSorted, Bool.and_eq_true, decide_eq_true_iff, sortedMembers_iff]
  exact ⟨pairwise_sortMembers ms, fun m hm => h m (mem_sortMembers hm)⟩

theorem depth_ofMembers_le {n : Nat} {ms : List (String × Json)} (h : ∀ m ∈ ms, m.2.depth ≤ n) :
    (ofMembers ms).depth ≤ n + 1 := by
  rw [ofMembers, depth]
  exact Nat.succ_le_succ (depthMembers_le_iff.mpr fun m hm => h m (mem_sortMembers hm))

theorem portable_ofMembers {n : Nat} {ms : List (String × Json)} (h : ∀ m ∈ ms, m.2.Portable n) :
    (ofMembers ms).Portable (n + 1) where
  exact := exactMembers_iff.mpr fun m hm => (h m (mem_sortMembers hm)).exact
  sorted := isSorted_ofMembers fun m hm => (h m hm).sorted
  shallow := depth_ofMembers_le fun m hm => (h m hm).shallow

/-! ### Values that are read -/

theorem Numeral.shape_of_value? {n : Numeral} {v : Json} (h : n.value? = some v) :
    v.isSorted = true ∧ v.depth = 0 := by
  have hreal : n.real? = some v → v.isSorted = true ∧ v.depth = 0 := fun h => by
    obtain ⟨x, -, rfl⟩ := Option.map_eq_some_iff.mp h
    simp [isSorted, depth]
  unfold value? at h
  split at h
  · exact hreal h
  · split at h
    · cases h
      simp [isSorted, depth]
    · exact hreal h

mutual

/-- A value that is read is sorted, and nests no deeper than it may. -/
theorem Written.shape_of_value? {depth : Nat} {w : Written} {v : Json} (h : w.value? depth = some v) :
    v.isSorted = true ∧ v.depth ≤ depth := by
  cases w with
  | null => cases h; simp [isSorted, Json.depth]
  | bool b => cases h; simp [isSorted, Json.depth]
  | number n =>
    have := Numeral.shape_of_value? h
    exact ⟨this.1, by omega⟩
  | text s =>
    obtain ⟨s, -, rfl⟩ := Option.map_eq_some_iff.mp h
    simp [isSorted, Json.depth]
  | array items =>
    cases depth with
    | zero => cases h
    | succ depth =>
      obtain ⟨vs, hvs, rfl⟩ := Option.map_eq_some_iff.mp h
      have := shape_of_values? hvs
      rw [isSorted, Json.depth, sortedItems_iff]
      exact ⟨fun x hx => (this x hx).1, Nat.succ_le_succ (depthItems_le_iff.mpr fun x hx => (this x hx).2)⟩
  | object members =>
    cases depth with
    | zero => cases h
    | succ depth =>
      obtain ⟨ms, hms, rfl⟩ := Option.map_eq_some_iff.mp h
      have := shape_of_memberValues? hms
      exact ⟨isSorted_ofMembers fun m hm => (this m hm).1, depth_ofMembers_le fun m hm => (this m hm).2⟩

theorem Written.shape_of_values? {depth : Nat} {ws : List Written} {vs : List Json}
    (h : values? depth ws = some vs) : ∀ v ∈ vs, v.isSorted = true ∧ v.depth ≤ depth := by
  cases ws with
  | nil => cases h; simp
  | cons w ws =>
    simp only [values?, Option.bind_eq_bind, Option.bind_eq_some_iff, Option.some.injEq] at h
    obtain ⟨v, hv, vs', hvs, rfl⟩ := h
    intro x hx
    rcases List.mem_cons.mp hx with rfl | hx
    · exact shape_of_value? hv
    · exact shape_of_values? hvs x hx

theorem Written.shape_of_memberValues? {depth : Nat} {ws : List (Option String × Written)} {ms : List (String × Json)}
    (h : memberValues? depth ws = some ms) : ∀ m ∈ ms, m.2.isSorted = true ∧ m.2.depth ≤ depth := by
  match ws with
  | [] => cases h; simp
  | (key, w) :: ws =>
    simp only [memberValues?, Option.bind_eq_bind, Option.bind_eq_some_iff, Option.some.injEq] at h
    obtain ⟨k, -, v, hv, ms', hms, rfl⟩ := h
    intro x hx
    rcases List.mem_cons.mp hx with rfl | hx
    · exact shape_of_value? hv
    · exact shape_of_memberValues? hms x hx

end

end TicketDesk.Json
