import ForeignCall.Signature.Property

/-! # Bytes of a text

The bytes of a text in UTF-8, and what can be seen of its characters in them. A byte below 128 is a
character of its own, and no other character has such a byte. So a class that takes in all characters
beyond ASCII, or none of them (`IsUniform`), can be looked for byte by byte: the bytes up to the first one
outside the class are those of the word that the characters make up (`takeWhile_utf8`).

A place in a text is given by the end that is left from there on. Its offset in bytes (`byteOffset`) is a
boundary between characters (`isBoundary_byteOffset`).
-/

namespace ForeignCall

namespace Text

variable {c : Char} {p : Char → Bool} {text rest : List Char}

def utf8 (text : List Char) : List UInt8 := text.flatMap String.utf8EncodeChar

@[simp]
theorem utf8_cons (c : Char) (text : List Char) : utf8 (c :: text) = String.utf8EncodeChar c ++ utf8 text :=
  List.flatMap_cons

theorem utf8_append (text rest : List Char) : utf8 (text ++ rest) = utf8 text ++ utf8 rest :=
  List.flatMap_append

theorem length_utf8 (text : List Char) : (utf8 text).length = textBytes text := by
  induction text with
  | nil => rfl
  | cons c text ih => rw [utf8_cons, List.length_append, ih, String.length_utf8EncodeChar, textBytes]

/-- The character with the code of a byte. -/
def ofByte (byte : UInt8) : Char := Char.ofNat byte.toNat

/-- A class that takes in all characters beyond ASCII, or none of them. -/
def IsUniform (p : Char → Bool) : Prop := ∃ inside, ∀ c : Char, 128 ≤ c.toNat → p c = inside

theorem toNat_ofByte (byte : UInt8) : (ofByte byte).toNat = byte.toNat := by
  have valid : byte.toNat.isValidChar := .inl (Nat.lt_trans byte.toNat_lt (by decide))
  rw [ofByte, Char.ofNat, dif_pos valid]
  exact UInt32.toNat_ofNatLT

theorem ofByte_ofNat {code : Nat} (small : code < 256) : ofByte (UInt8.ofNat code) = Char.ofNat code := by
  rw [ofByte, UInt8.toNat_ofNat_of_lt' small]

/-- A character is one byte below 128, or all of its bytes are above. -/
theorem utf8EncodeChar_cases (c : Char) :
    (c.toNat < 128 ∧ String.utf8EncodeChar c = [UInt8.ofNat c.toNat]) ∨
      128 ≤ c.toNat ∧ ∀ byte ∈ String.utf8EncodeChar c, 128 ≤ (ofByte byte).toNat := by
  have code : c.val.toNat = c.toNat := rfl
  rw [String.utf8EncodeChar.eq_1, code]
  split
  next ascii => exact .inl ⟨by omega, rfl⟩
  next beyond =>
    refine .inr ⟨by omega, fun byte present => ?_⟩
    rw [toNat_ofByte]
    split at present
    next =>
      simp only [List.mem_cons, List.not_mem_nil, or_false] at present
      rcases present with rfl | rfl <;> rw [UInt8.toNat_ofNat'] <;> omega
    next =>
      split at present
      next =>
        simp only [List.mem_cons, List.not_mem_nil, or_false] at present
        rcases present with rfl | rfl | rfl <;> rw [UInt8.toNat_ofNat'] <;> omega
      next =>
        simp only [List.mem_cons, List.not_mem_nil, or_false] at present
        rcases present with rfl | rfl | rfl | rfl <;> rw [UInt8.toNat_ofNat'] <;> omega

/-- A text begins with the first byte of its first character. -/
theorem head?_utf8_cons (c : Char) (text : List Char) :
    (utf8 (c :: text)).head?.map ofByte = some (Property.leadByte c) := by
  have code : c.val.toNat = c.toNat := rfl
  have largest : c.toNat < 0x110000 := c.valid.elim (fun low => by omega) fun high => by omega
  rw [utf8_cons, String.utf8EncodeChar.eq_1, Property.leadByte, code]
  by_cases one : c.toNat < 0x80
  · rw [if_pos (by omega), if_pos one]
    exact congrArg some ((ofByte_ofNat (by omega)).trans (Char.ofNat_toNat c))
  rw [if_neg (by omega), if_neg one]
  by_cases two : c.toNat < 0x800
  · rw [if_pos (by omega), if_pos two]
    exact congrArg some ((ofByte_ofNat (by omega)).trans (congrArg Char.ofNat (by omega)))
  rw [if_neg (by omega), if_neg two]
  by_cases three : c.toNat < 0x10000
  · rw [if_pos (by omega), if_pos three]
    exact congrArg some ((ofByte_ofNat (by omega)).trans (congrArg Char.ofNat (by omega)))
  · rw [if_neg (by omega), if_neg three]
    exact congrArg some ((ofByte_ofNat (by omega)).trans (congrArg Char.ofNat (by omega)))

/-- A word of a uniform class can be looked for byte by byte. -/
theorem takeWhile_utf8 (uniform : IsUniform p) (text : List Char) :
    (utf8 text).takeWhile (p ∘ ofByte) = utf8 (text.takeWhile p) ∧
      (utf8 text).dropWhile (p ∘ ofByte) = utf8 (text.dropWhile p) := by
  obtain ⟨inside, beyond⟩ := uniform
  induction text with
  | nil => exact ⟨rfl, rfl⟩
  | cons c text ih =>
    have alike : ∀ byte ∈ String.utf8EncodeChar c, (p ∘ ofByte) byte = p c := by
      intro byte present
      rcases utf8EncodeChar_cases c with ⟨ascii, single⟩ | ⟨above, bytes⟩
      · rw [single, List.mem_singleton] at present
        rw [present, Function.comp, ofByte_ofNat (Nat.lt_trans ascii (by decide)), Char.ofNat_toNat]
      · rw [beyond c above, Function.comp, beyond _ (bytes byte present)]
    rw [utf8_cons]
    cases within : p c with
    | true =>
      have taken : ∀ byte ∈ String.utf8EncodeChar c, (p ∘ ofByte) byte = true :=
        fun byte present => (alike byte present).trans within
      rw [List.takeWhile_append_of_pos taken, List.dropWhile_append_of_pos taken, ih.1, ih.2,
        List.takeWhile_cons_of_pos within, List.dropWhile_cons_of_pos within, utf8_cons]
      exact ⟨rfl, rfl⟩
    | false =>
      obtain ⟨byte, bytes, split⟩ := List.exists_cons_of_ne_nil (String.utf8EncodeChar_ne_nil (c := c))
      have stops : ¬(p ∘ ofByte) byte = true := by
        rw [alike byte (split ▸ List.mem_cons_self ..), within]
        exact Bool.false_ne_true
      have within' : ¬p c = true := by simp [within]
      rw [split, List.cons_append, List.takeWhile_cons_of_neg stops, List.dropWhile_cons_of_neg stops,
        List.takeWhile_cons_of_neg within', List.dropWhile_cons_of_neg within', utf8_cons, split]
      exact ⟨rfl, rfl⟩

end Text

/-! ## Boundaries -/

variable {text rest left : List Char}

/-- The bytes before the end of a text that is left. -/
def byteOffset (text rest : List Char) : Nat := textBytes text - textBytes rest

/-- An offset in bytes at which a character of the text begins or the text ends. -/
def IsBoundary (text : String) (offset : Nat) : Prop := (⟨offset⟩ : String.Pos.Raw).IsValid text

theorem textBytes_append (before rest : List Char) :
    textBytes (before ++ rest) = textBytes before + textBytes rest := by
  rw [← Text.length_utf8, Text.utf8_append, List.length_append, Text.length_utf8, Text.length_utf8]

theorem utf8ByteSize_ofList (text : List Char) : (String.ofList text).utf8ByteSize = textBytes text := by
  induction text with
  | nil => rfl
  | cons c text ih =>
    rw [String.ofList_cons, String.utf8ByteSize_append, String.utf8ByteSize_singleton, ih, textBytes]

theorem byteOffset_append (before rest : List Char) : byteOffset (before ++ rest) rest = textBytes before := by
  rw [byteOffset, textBytes_append, Nat.add_sub_cancel]

/-- Offsets in an end of a text count from where that end begins. -/
theorem byteOffset_add (within : rest <:+ text) (further : left <:+ rest) :
    byteOffset rest left + byteOffset text rest = byteOffset text left := by
  obtain ⟨middle, rfl⟩ := further
  obtain ⟨before, rfl⟩ := within
  rw [byteOffset_append, byteOffset_append, ← List.append_assoc, byteOffset_append, textBytes_append,
    Nat.add_comm]

theorem byteOffset_le (within : rest <:+ text) (further : left <:+ rest) :
    byteOffset text rest ≤ byteOffset text left :=
  byteOffset_add within further ▸ Nat.le_add_left _ _

/-- Leaving out a character moves the offset by its bytes. -/
theorem byteOffset_tail {c : Char} (within : c :: rest <:+ text) :
    byteOffset text rest = byteOffset text (c :: rest) + c.utf8Size := by
  have one : byteOffset (c :: rest) rest = c.utf8Size := by
    rw [byteOffset, textBytes, Nat.add_sub_cancel]
  rw [← byteOffset_add within (List.suffix_cons c rest), one, Nat.add_comm]

theorem byteOffset_lt {c : Char} (within : c :: rest <:+ text) (further : left <:+ rest) :
    byteOffset text (c :: rest) < byteOffset text left := by
  have forward := byteOffset_le ((List.suffix_cons c rest).trans within) further
  have size := c.utf8Size_pos
  rw [byteOffset_tail within] at forward
  omega

/-- A word moves the offset by its bytes. -/
theorem byteOffset_dropWhile (p : Char → Bool) (within : rest <:+ text) :
    byteOffset text (rest.dropWhile p) = byteOffset text rest + textBytes (rest.takeWhile p) := by
  have word := byteOffset_append (rest.takeWhile p) (rest.dropWhile p)
  rw [List.takeWhile_append_dropWhile] at word
  rw [← byteOffset_add within (List.dropWhile_suffix p), word, Nat.add_comm]

theorem byteOffset_le_size {text : String} (rest : List Char) :
    byteOffset text.toList rest ≤ text.utf8ByteSize := by
  rw [← String.ofList_toList (s := text), utf8ByteSize_ofList, String.toList_ofList]
  exact Nat.sub_le _ _

theorem isBoundary_byteOffset {text : String} (within : rest <:+ text.toList) :
    IsBoundary text (byteOffset text.toList rest) := by
  obtain ⟨before, split⟩ := within
  rw [← split, byteOffset_append]
  refine String.Pos.Raw.isValid_iff_exists_append.mpr ⟨String.ofList before, String.ofList rest, ?_, ?_⟩
  · rw [← String.ofList_append, split, String.ofList_toList]
  · rw [String.rawEndPos, utf8ByteSize_ofList]

end ForeignCall
