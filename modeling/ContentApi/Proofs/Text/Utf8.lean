import ContentApi.Text.Utf8

/-! Texts are read back from their bytes. -/

namespace ContentApi

/-- A byte that is expected next adds its bits where more are to come. -/
theorem utf8Chars_middle {bits missing least greatest low : Nat} (small : low < 64)
    (above : least ≤ low + 0x80) (below : low + 0x80 ≤ greatest) (rest : Bytes) :
    utf8Chars (some ⟨bits, missing + 2, least, greatest⟩) (UInt8.ofNat (low + 0x80) :: rest) =
      utf8Chars (some ⟨64 * bits + low, missing + 1, 0x80, 0xBF⟩) rest := by
  -- At least one more byte is missing, so this one does not complete the character.
  have last : missing + 2 ≠ 1 := by omega
  rw [utf8Chars, UInt8.toNat_ofNat_of_lt' (show low + 0x80 < 256 by omega),
    if_pos ⟨above, below⟩, Nat.add_sub_cancel, if_neg last]
  rfl

/-- The last byte of a character completes its bits. -/
theorem utf8Chars_last {bits low : Nat} (small : low < 64) (rest : Bytes) :
    utf8Chars (some ⟨bits, 1, 0x80, 0xBF⟩) (UInt8.ofNat (low + 0x80) :: rest) =
      Char.ofNat (64 * bits + low) :: utf8Chars none rest := by
  -- The byte is in the span for what continues a character, and nothing is left to read after it.
  rw [utf8Chars, UInt8.toNat_ofNat_of_lt' (show low + 0x80 < 256 by omega),
    if_pos ⟨Nat.le_add_left _ _, show low + 0x80 ≤ 0xBF by omega⟩, Nat.add_sub_cancel, if_pos rfl]

/-- A byte at the start of a character is looked at on its own. -/
theorem utf8Chars_start {n : Nat} (small : n < 256) (rest : Bytes) :
    utf8Chars none (UInt8.ofNat n :: rest) =
      (utf8Start n).1 ++ utf8Chars (utf8Start n).2 rest := by
  rw [utf8Chars, UInt8.toNat_ofNat_of_lt' small]

/-- The first of two bytes leaves one to come. -/
theorem utf8Start_two {v : Nat} (long : 0x7F < v) (short : v ≤ 0x7FF) :
    utf8Start (v / 64 + 0xC0) = ([], some ⟨v / 64, 1, 0x80, 0xBF⟩) := by
  rw [utf8Start, if_neg (by omega), if_pos (by omega), Nat.add_sub_cancel]

/-- The first of three bytes leaves two to come, the next of them within the span that surrogates
and overlong forms are kept out by. -/
theorem utf8Start_three {v : Nat} (long : 0x7FF < v) (short : v ≤ 0xFFFF)
    (scalar : v < 0xD800 ∨ 0xDFFF < v) : ∃ least greatest,
    utf8Start (v / 4096 + 0xE0) = ([], some ⟨v / 4096, 2, least, greatest⟩) ∧
      least ≤ v / 64 % 64 + 0x80 ∧ v / 64 % 64 + 0x80 ≤ greatest := by
  rw [utf8Start, if_neg (by omega), if_neg (by omega)]
  -- The first byte bounds the second from below if its bits are zero, since a shorter form would
  -- do, and from above in front of the surrogates.
  by_cases first : v / 4096 = 0
  · exact ⟨0xA0, 0xBF, by rw [first]; rfl, by omega, by omega⟩
  · rw [if_neg (by omega)]
    by_cases before : v / 4096 = 0xD
    · exact ⟨0x80, 0x9F, by rw [before]; rfl, by omega, by omega⟩
    · refine ⟨0x80, 0xBF, ?_, by omega, by omega⟩
      rw [if_neg (by omega), if_pos (by omega), Nat.add_sub_cancel]

/-- The first of four bytes leaves three to come, the next of them within the span that overlong
forms and values too great are kept out by. -/
theorem utf8Start_four {v : Nat} (long : 0xFFFF < v) (short : v < 0x110000) : ∃ least greatest,
    utf8Start (v / 262144 + 0xF0) = ([], some ⟨v / 262144, 3, least, greatest⟩) ∧
      least ≤ v / 4096 % 64 + 0x80 ∧ v / 4096 % 64 + 0x80 ≤ greatest := by
  rw [utf8Start, if_neg (by omega), if_neg (by omega), if_neg (by omega), if_neg (by omega),
    if_neg (by omega)]
  -- The first byte bounds the second from below if its bits are zero, since a shorter form would
  -- do, and from above in front of the last characters.
  by_cases first : v / 262144 = 0
  · exact ⟨0x90, 0xBF, by rw [first]; rfl, by omega, by omega⟩
  · rw [if_neg (by omega)]
    by_cases last : v / 262144 = 4
    · exact ⟨0x80, 0x8F, by rw [last]; rfl, by omega, by omega⟩
    · refine ⟨0x80, 0xBF, ?_, by omega, by omega⟩
      rw [if_neg (by omega), if_pos (by omega), Nat.add_sub_cancel]

/-- A character is read back from its bytes, whatever follows them. -/
theorem utf8Chars_encodeChar (c : Char) (rest : Bytes) :
    utf8Chars none (String.utf8EncodeChar c ++ rest) = c :: utf8Chars none rest := by
  have scalar : c.toNat < 0xD800 ∨ 0xDFFF < c.toNat ∧ c.toNat < 0x110000 := c.valid
  have back : Char.ofNat c.toNat = c := Char.ofNat_toNat c
  have value : c.val.toNat = c.toNat := rfl
  rw [String.utf8EncodeChar, value]
  -- From here on the character is its number, which is split by the lengths of its forms.
  generalize c.toNat = v at scalar back
  by_cases one : v ≤ 0x7F
  · rw [if_pos one, List.cons_append, List.nil_append, utf8Chars_start (by omega), utf8Start,
      if_pos (by omega), back]
    rfl
  rw [if_neg one]
  by_cases two : v ≤ 0x7FF
  · have high : v / 64 % 0x20 = v / 64 := Nat.mod_eq_of_lt (by omega)
    -- Each byte behind the first one brings six bits.
    have whole : 64 * (v / 64) + v % 64 = v := by omega
    rw [if_pos two, high, List.cons_append, List.cons_append, List.nil_append,
      utf8Chars_start (by omega), utf8Start_two (by omega) two, List.nil_append,
      utf8Chars_last (by omega), whole, back]
  rw [if_neg two]
  by_cases three : v ≤ 0xFFFF
  · have high : v / 4096 % 0x10 = v / 4096 := Nat.mod_eq_of_lt (by omega)
    have whole : 64 * (64 * (v / 4096) + v / 64 % 64) + v % 64 = v := by omega
    obtain ⟨least, greatest, start, above, below⟩ :=
      utf8Start_three (v := v) (by omega) three (by omega)
    rw [if_pos three, high, List.cons_append, List.cons_append, List.cons_append, List.nil_append,
      utf8Chars_start (by omega), start, List.nil_append,
      utf8Chars_middle (by omega) above below, utf8Chars_last (by omega), whole, back]
  · have high : v / 262144 % 0x08 = v / 262144 := Nat.mod_eq_of_lt (by omega)
    have whole : 64 * (64 * (64 * (v / 262144) + v / 4096 % 64) + v / 64 % 64) + v % 64 = v := by
      omega
    -- Only the second byte is bounded by the first; the two behind it are not.
    obtain ⟨least, greatest, start, above, below⟩ := utf8Start_four (v := v) (by omega) (by omega)
    rw [if_neg three, high, List.cons_append, List.cons_append, List.cons_append, List.cons_append,
      List.nil_append, utf8Chars_start (by omega), start, List.nil_append,
      utf8Chars_middle (by omega) above below,
      utf8Chars_middle (by omega) (by omega) (by omega), utf8Chars_last (by omega), whole, back]

/-- Characters are read back from their bytes one by one, whatever follows them. -/
theorem utf8Chars_flatMap (cs : List Char) (rest : Bytes) :
    utf8Chars none (cs.flatMap String.utf8EncodeChar ++ rest) = cs ++ utf8Chars none rest := by
  -- The induction is on the characters, each of which is read from its own bytes.
  induction cs with
  | nil => rfl
  | cons c others ih =>
    rw [List.flatMap_cons, List.append_assoc, utf8Chars_encodeChar, ih, List.cons_append]

/-- A text is read back from the bytes of its characters. -/
theorem textOfUtf8_flatMap (cs : List Char) :
    textOfUtf8 (cs.flatMap String.utf8EncodeChar) = String.ofList cs := by
  -- Nothing follows the characters, and nothing is pending behind the last of them.
  have whole := utf8Chars_flatMap cs []
  rw [List.append_nil, utf8Chars, List.append_nil] at whole
  rw [textOfUtf8, whole]

/-- What is gathered of an array from some place on is what stands there. -/
theorem toList_loop (bytes : ByteArray) (i : Nat) (gathered : Bytes) :
    ByteArray.toList.loop bytes i gathered = gathered.reverse ++ bytes.data.toList.drop i := by
  -- The loop gathers in front, so that what it has gathered is reversed once at the end.
  fun_induction ByteArray.toList.loop bytes i gathered with
  | case1 i gathered inside ih =>
    rw [ih, List.reverse_cons, List.append_assoc, List.singleton_append,
      List.drop_eq_getElem_cons (i := i) (by simpa using inside)]
    simp [ByteArray.get!, inside]
  | case2 i gathered outside =>
    have size : bytes.size = bytes.data.toList.length := rfl
    rw [List.drop_of_length_le (by omega), List.append_nil]

/-- The bytes of a text are those of its characters. -/
theorem utf8Bytes_eq (text : String) :
    utf8Bytes text = text.toList.flatMap String.utf8EncodeChar := by
  -- The bytes of a text are kept as those that its characters are encoded to.
  have bytes : text.toByteArray = text.toList.utf8Encode := by
    rw [← String.toByteArray_ofList, String.ofList_toList]
  rw [utf8Bytes, String.toUTF8_eq_toByteArray, bytes, ByteArray.toList, toList_loop]
  exact List.toList_data_toByteArray

/-- A text is read back from its bytes. -/
@[simp] theorem textOfUtf8_utf8Bytes (text : String) : textOfUtf8 (utf8Bytes text) = text := by
  rw [utf8Bytes_eq, textOfUtf8_flatMap, String.ofList_toList]

/-- Whether no byte of ASCII can be the next one of a character that is still incomplete. -/
def Utf8Pending.IsAbove (pending : Option Utf8Pending) : Prop :=
  ∀ p, pending = some p → 0x80 ≤ p.least

/-- What starts a character leaves no byte of ASCII to come. -/
theorem utf8Start_isAbove (b : Nat) : Utf8Pending.IsAbove (utf8Start b).2 := by
  intro p pending
  rw [utf8Start] at pending
  -- Eight spans of bytes are told apart.
  repeat' split at pending
  all_goals simp only [reduceCtorEq, Option.some.injEq] at pending
  all_goals
    subst pending
    simp

/-- A byte of ASCII at the end of a byte string is a character, however broken the bytes before it
are. -/
theorem mem_utf8Chars_concat {b : UInt8} (ascii : b.toNat < 0x80) (bytes : Bytes)
    (pending : Option Utf8Pending) (above : Utf8Pending.IsAbove pending) :
    Char.ofNat b.toNat ∈ utf8Chars pending (bytes ++ [b]) := by
  -- Where nothing is pending, a byte of ASCII is the character that it stands for.
  have start : utf8Start b.toNat = ([Char.ofNat b.toNat], none) := by
    rw [utf8Start, if_pos ascii]
  fun_induction utf8Chars pending bytes with
  | case1 =>
    rw [List.nil_append, utf8Chars, start]
    exact List.mem_cons_self
  | case2 p =>
    -- What is pending wants a byte above those of ASCII, and is given up for this one.
    have least : 0x80 ≤ p.least := above p rfl
    rw [List.nil_append, utf8Chars, if_neg (by omega), start]
    exact List.mem_cons_of_mem _ List.mem_cons_self
  | case3 first rest step ih =>
    rw [List.cons_append, utf8Chars]
    exact List.mem_append_right _ (ih (utf8Start_isAbove _))
  | case4 p first rest n within bits last ih =>
    rw [List.cons_append, utf8Chars, if_pos within, if_pos last]
    exact List.mem_cons_of_mem _ (ih nofun)
  | case5 p first rest n within bits more ih =>
    rw [List.cons_append, utf8Chars, if_pos within, if_neg more]
    exact ih fun q same => (Option.some.inj same) ▸ Nat.le_refl 0x80
  | case6 p first rest n outside step ih =>
    rw [List.cons_append, utf8Chars, if_neg outside]
    exact List.mem_cons_of_mem _ (List.mem_append_right _ (ih (utf8Start_isAbove _)))

end ContentApi
