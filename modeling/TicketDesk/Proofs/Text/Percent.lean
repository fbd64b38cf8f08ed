import TicketDesk.Json.Quoted
import TicketDesk.Text.Percent

/-! # Percent encoding read back

An escape is read as one byte and any other character as its own bytes, so an encoded text is read back as
the UTF-8 bytes of the text it was made of. It holds unreserved characters and percent signs only, and none
of those separates the parts of a URL. The encoding is faithful: what it writes is spelled in plain characters and
escapes, stands for the bytes of the text and no others, and may be cut where the text may. -/

namespace TicketDesk.Text

/-- The bytes that a percent-encoded text stands for. -/
def decodedBytes? : List Char → Option (List UInt8)
  | [] => some []
  | '%' :: high :: low :: rest => do
    let high ← Json.hexDigit? high
    let low ← Json.hexDigit? low
    let bytes ← decodedBytes? rest
    some (UInt8.ofNat (high * 16 + low) :: bytes)
  | '%' :: _ => none
  | c :: rest => (decodedBytes? rest).map (String.utf8EncodeChar c ++ ·)

/-! ### Escapes -/

theorem hexDigit?_upperHex {n : Nat} (h : n < 16) : Json.hexDigit? (upperHex n) = some n := by
  revert n
  decide

theorem isUnreserved_upperHex {n : Nat} (h : n < 16) : isUnreserved (upperHex n) = true := by
  revert n
  decide

theorem ofNat_digits (b : UInt8) : UInt8.ofNat (b.toNat / 16 * 16 + b.toNat % 16) = b := by
  rw [Nat.div_add_mod', UInt8.ofNat_toNat]

theorem decodedBytes?_escapeByte (b : UInt8) (rest : List Char) :
    decodedBytes? (escapeByte b ++ rest) = (decodedBytes? rest).map (b :: ·) := by
  have hb : b.toNat < 256 := b.toNat_lt
  have hhigh := hexDigit?_upperHex (n := b.toNat / 16) (by omega)
  have hlow := hexDigit?_upperHex (n := b.toNat % 16) (by omega)
  simp only [escapeByte, List.cons_append, List.nil_append, decodedBytes?, hhigh, hlow, Option.bind_eq_bind,
    Option.bind_some, ofNat_digits]
  cases decodedBytes? rest <;> rfl

theorem decodedBytes?_flatMap_escapeByte (bs : List UInt8) (rest : List Char) :
    decodedBytes? (bs.flatMap escapeByte ++ rest) = (decodedBytes? rest).map (bs ++ ·) := by
  induction bs with
  | nil => simp
  | cons b bs ih =>
    rw [List.flatMap_cons, List.append_assoc, decodedBytes?_escapeByte, ih, Option.map_map]
    rfl

/-! ### Characters -/

theorem isUnreserved_percent : isUnreserved '%' = false := by decide

theorem decodedBytes?_encodeChar (c : Char) (rest : List Char) :
    decodedBytes? (encodeChar c ++ rest) = (decodedBytes? rest).map (String.utf8EncodeChar c ++ ·) := by
  rw [encodeChar]
  split
  · next h =>
    have hne : c ≠ '%' := fun he => by simp [he, isUnreserved_percent] at h
    rw [List.singleton_append, decodedBytes?]
    · exact fun _ _ _ he => absurd he hne
    · exact hne
  · exact decodedBytes?_flatMap_escapeByte _ rest

theorem isUnreserved_of_mem_encodeChar {c x : Char} (h : x ∈ encodeChar c) : isUnreserved x = true ∨ x = '%' := by
  rw [encodeChar] at h
  split at h
  · next hc =>
    rw [List.mem_singleton.mp h]
    exact Or.inl hc
  · obtain ⟨b, -, hx⟩ := List.mem_flatMap.mp h
    have hb : b.toNat < 256 := b.toNat_lt
    simp only [escapeByte, List.mem_cons, List.not_mem_nil, or_false] at hx
    rcases hx with rfl | rfl | rfl
    · exact Or.inr rfl
    · exact Or.inl (isUnreserved_upperHex (by omega))
    · exact Or.inl (isUnreserved_upperHex (by omega))

/-! ### Texts -/

theorem toList_toUTF8 (s : String) : s.toUTF8.data.toList = s.toList.flatMap String.utf8EncodeChar := by
  rw [String.toUTF8_eq_toByteArray, ← String.utf8Encode_toList, List.utf8Encode, List.data_toByteArray]

theorem decodedBytes?_flatMap_encodeChar (cs : List Char) :
    decodedBytes? (cs.flatMap encodeChar) = some (cs.flatMap String.utf8EncodeChar) := by
  induction cs with
  | nil => rfl
  | cons c cs ih => rw [List.flatMap_cons, decodedBytes?_encodeChar, ih, Option.map_some, List.flatMap_cons]

/-- An encoded text stands for the bytes of the text. -/
theorem decodedBytes?_encodeComponent (s : String) :
    decodedBytes? (encodeComponent s).toList = some s.toUTF8.data.toList := by
  rw [encodeComponent, String.toList_ofList, decodedBytes?_flatMap_encodeChar, toList_toUTF8]

theorem encodeComponent_injective {s t : String} (h : encodeComponent s = encodeComponent t) : s = t := by
  have hbytes := decodedBytes?_encodeComponent s
  rw [h, decodedBytes?_encodeComponent t, Option.some.injEq] at hbytes
  have hutf8 : t.toUTF8 = s.toUTF8 := ByteArray.ext (Array.toList_inj.mp hbytes)
  exact String.toByteArray_inj.mp hutf8.symm

theorem isUnreserved_of_mem_encodeComponent {s : String} {x : Char} (h : x ∈ (encodeComponent s).toList) :
    isUnreserved x = true ∨ x = '%' := by
  rw [encodeComponent, String.toList_ofList] at h
  obtain ⟨c, -, hx⟩ := List.mem_flatMap.mp h
  exact isUnreserved_of_mem_encodeChar hx

/-- The characters that separate the parts of a URL, and those that stand for a space in a query. -/
def separators : List Char := ['&', '=', '#', '?', '/', '+', ' ']

theorem not_mem_separators_of_mem_encodeComponent {s : String} {x : Char} (h : x ∈ (encodeComponent s).toList) :
    x ∉ separators := by
  have hsafe : separators.all (fun y => !isUnreserved y && y != '%') = true := rfl
  intro hmem
  have hx := List.all_eq_true.mp hsafe x hmem
  rcases isUnreserved_of_mem_encodeComponent h with hu | rfl
  · simp [hu] at hx
  · simp at hx

/-! ### Spellings -/

/-- The characters that stand for themselves. -/
def plainChars : List Char :=
  "ABCDEFGHIJKLMNOPQRSTUVWXYZabcdefghijklmnopqrstuvwxyz0123456789-_.!~*'()".toList

/-- The digits of an escape; each has its position as its value. -/
def escapeDigits : List Char := "0123456789ABCDEF".toList

/-- A text of plain characters and escapes, with the bytes that it stands for. -/
inductive Spells : List Char → List UInt8 → Prop
  | nil : Spells [] []
  /-- A plain character stands for its code. -/
  | plain {c : Char} {cs : List Char} {bs : List UInt8} (hc : c ∈ plainChars) (rest : Spells cs bs) :
    Spells (c :: cs) (c.toUInt8 :: bs)
  /-- A percent sign and two digits stand for the byte that has these digits. -/
  | escape {high low : Nat} {h l : Char} {cs : List Char} {bs : List UInt8} (hhigh : escapeDigits[high]? = some h)
    (hlow : escapeDigits[low]? = some l) (rest : Spells cs bs) :
    Spells ('%' :: h :: l :: cs) (UInt8.ofNat (high * 16 + low) :: bs)

theorem toNat_lt_of_isUnreserved {c : Char} (h : isUnreserved c = true) : c.toNat < 128 := by
  have hmarks : (['-', '_', '.', '!', '~', '*', '\'', '(', ')'].all fun c => c.toNat < 128) = true := rfl
  rw [isUnreserved, Bool.or_eq_true] at h
  rcases h with halphanum | hmark
  · have hval : c.toNat = c.val.toNat := rfl
    delta Char.isAlphanum Char.isAlpha Char.isUpper Char.isLower Char.isDigit at halphanum
    simp only [Bool.or_eq_true, Bool.and_eq_true, decide_eq_true_eq, ge_iff_le, UInt32.le_iff_toNat_le, Char.reduceVal,
      UInt32.reduceToNat] at halphanum
    omega
  · exact of_decide_eq_true (List.all_eq_true.mp hmarks c (List.contains_iff_mem.mp hmark))

theorem mem_plainChars_iff {c : Char} : c ∈ plainChars ↔ isUnreserved c = true := by
  have hall : ∀ n < 128, isUnreserved (Char.ofNat n) = true → Char.ofNat n ∈ plainChars := by decide +kernel
  refine ⟨fun h => List.all_eq_true.mp (rfl : plainChars.all isUnreserved = true) c h, fun h => ?_⟩
  have hc := hall c.toNat (toNat_lt_of_isUnreserved h)
  rw [Char.ofNat_toNat] at hc
  exact hc h

theorem utf8EncodeChar_of_mem_plainChars {c : Char} (h : c ∈ plainChars) : String.utf8EncodeChar c = [c.toUInt8] := by
  have hall : (plainChars.all fun c => String.utf8EncodeChar c == [c.toUInt8]) = true := by decide +kernel
  exact beq_iff_eq.mp (List.all_eq_true.mp hall c h)

theorem getElem?_escapeDigits {n : Nat} (h : n < 16) : escapeDigits[n]? = some (upperHex n) := by
  revert n
  decide

theorem Spells.append {cs cs' : List Char} {bs bs' : List UInt8} (h : Spells cs bs) (h' : Spells cs' bs') :
    Spells (cs ++ cs') (bs ++ bs') := by
  induction h with
  | nil => exact h'
  | plain hc _ ih => exact .plain hc ih
  | escape hhigh hlow _ ih => exact .escape hhigh hlow ih

theorem spells_escapeByte (b : UInt8) : Spells (escapeByte b) [b] := by
  have hb : b.toNat < 256 := b.toNat_lt
  have h := Spells.escape (getElem?_escapeDigits (n := b.toNat / 16) (by omega))
    (getElem?_escapeDigits (n := b.toNat % 16) (by omega)) .nil
  rwa [ofNat_digits] at h

theorem spells_encodeChar (c : Char) : Spells (encodeChar c) (String.utf8EncodeChar c) := by
  rw [encodeChar]
  split
  · next h =>
    have hc := mem_plainChars_iff.mpr h
    rw [utf8EncodeChar_of_mem_plainChars hc]
    exact .plain hc .nil
  · induction String.utf8EncodeChar c with
    | nil => exact .nil
    | cons b bs ih => exact (spells_escapeByte b).append ih

theorem spells_encodeComponent (s : String) : Spells (encodeComponent s).toList s.toUTF8.data.toList := by
  rw [encodeComponent, String.toList_ofList, toList_toUTF8]
  induction s.toList with
  | nil => exact .nil
  | cons c cs ih => exact (spells_encodeChar c).append ih

theorem encodeChar_eq_singleton_iff {c : Char} : encodeChar c = [c] ↔ c ∈ plainChars := by
  rw [mem_plainChars_iff, encodeChar]
  split
  · next h => exact iff_of_true rfl h
  · next h =>
    -- The character has a byte at least, and each of its bytes becomes three characters.
    refine iff_of_false (fun he => ?_) h
    have hlength := congrArg List.length he
    have hsize := c.utf8Size_pos
    rw [← String.length_utf8EncodeChar] at hsize
    simp only [List.length_flatMap, escapeByte, List.length_cons, List.length_nil, List.map_const',
      List.sum_replicate_nat] at hlength
    omega

/-- What a text stands for is what it is decoded to. -/
theorem Spells.decodedBytes?_eq {cs : List Char} {bs : List UInt8} (h : Spells cs bs) : decodedBytes? cs = some bs := by
  induction h with
  | nil => rfl
  | @plain c cs bs hc _ ih =>
    have hchar := decodedBytes?_encodeChar c cs
    rwa [encodeChar_eq_singleton_iff.mpr hc, utf8EncodeChar_of_mem_plainChars hc, ih] at hchar
  | @escape high low _ _ _ _ hhigh hlow _ ih =>
    have hb : high < 16 := (List.getElem?_eq_some_iff.mp hhigh).1
    have hb' : low < 16 := (List.getElem?_eq_some_iff.mp hlow).1
    obtain rfl := Option.some.inj ((getElem?_escapeDigits hb).symm.trans hhigh)
    obtain rfl := Option.some.inj ((getElem?_escapeDigits hb').symm.trans hlow)
    simp only [decodedBytes?, hexDigit?_upperHex hb, hexDigit?_upperHex hb', ih, Option.bind_eq_bind, Option.bind_some]

/-! ### The encoding -/

/-- An encoding of texts by which a text is neither changed nor lost. -/
structure Faithful (encode : String → String) : Prop where
  /-- Nothing but plain characters and escapes is written, and it stands for the bytes of the text and no others. -/
  spells : ∀ s bs, Spells (encode s).toList bs ↔ bs = s.toUTF8.data.toList
  /-- Wherever a character stands, it is left as it is if it is plain, and only then. -/
  plain : ∀ s c t,
    encode (s ++ String.singleton c ++ t) = encode s ++ String.singleton c ++ encode t ↔ c ∈ plainChars
  append : ∀ s t, encode (s ++ t) = encode s ++ encode t
  injective : Function.Injective encode
  /-- Cut between two characters of the text, what is written comes apart into what these two parts stand for. -/
  cut : ∀ s t, Spells ((encode (s ++ t)).toList.take (encode s).length) s.toUTF8.data.toList ∧
    Spells ((encode (s ++ t)).toList.drop (encode s).length) t.toUTF8.data.toList

theorem encodeComponent_singleton (c : Char) : encodeComponent (String.singleton c) = String.ofList (encodeChar c) := by
  simp [encodeComponent]

/-- Percent encoding is faithful, whatever the text: also one that holds percent signs or looks like an escape. -/
theorem faithful_encodeComponent : Faithful encodeComponent where
  spells s bs := by
    refine ⟨fun h => ?_, fun h => h ▸ spells_encodeComponent s⟩
    have hbytes := h.decodedBytes?_eq
    rw [decodedBytes?_encodeComponent] at hbytes
    exact (Option.some.inj hbytes).symm
  plain s c t := by
    have hsingleton : String.singleton c = String.ofList [c] := by simp
    rw [encodeComponent_append, encodeComponent_append, String.append_left_inj, String.append_right_inj,
      encodeComponent_singleton, hsingleton, String.ofList_inj, encodeChar_eq_singleton_iff]
  append := encodeComponent_append
  injective _ _ := encodeComponent_injective
  cut s t := by
    rw [encodeComponent_append, String.toList_append, ← String.length_toList, List.take_left, List.drop_left]
    exact ⟨spells_encodeComponent s, spells_encodeComponent t⟩

example : encodeComponent "a b%20é" = "a%20b%2520%C3%A9" := by decide

end TicketDesk.Text
