import ContentApi.Proofs.Text.Utf8
import ContentApi.Url.Percent

/-! What is percent-encoded is decoded to the bytes it came from. -/

namespace ContentApi

/-- A digit below sixteen has its value. -/
theorem hexValue?_upperHexDigit {n : Nat} (small : n < 16) :
    hexValue? (upperHexDigit n) = some n := by
  -- There are few digits, so the reader is asked about every one of them.
  have all : ∀ m < 16, hexValue? (upperHexDigit m) = some m := by decide
  exact all n small

/-- An encoded byte is decoded, whatever follows it. -/
theorem percentDecode_percentByte (b : UInt8) (rest : List Char) :
    percentDecode (percentByte b ++ rest) = b :: percentDecode rest := by
  -- A byte is two digits below sixteen.
  have bound : b.toNat < 256 := b.toNat_lt
  have high := hexValue?_upperHexDigit (n := b.toNat / 16) (by omega)
  have low := hexValue?_upperHexDigit (n := b.toNat % 16) (by omega)
  have sum : 16 * (b.toNat / 16) + b.toNat % 16 = b.toNat := by omega
  simp only [percentByte, List.cons_append, List.nil_append]
  rw [percentDecode, high, low]
  simp only [sum, UInt8.ofNat_toNat]

/-- Encoded bytes are decoded, whatever follows them. -/
theorem percentDecode_bytes (bytes : Bytes) (rest : List Char) :
    percentDecode (bytes.flatMap percentByte ++ rest) = bytes ++ percentDecode rest := by
  -- The induction is on the bytes, each of which is written with three characters.
  induction bytes with
  | nil => rfl
  | cons b others ih =>
    rw [List.flatMap_cons, List.append_assoc, percentDecode_percentByte, ih, List.cons_append]

/-- A character other than the percent sign is decoded to its own bytes. -/
theorem percentDecode_cons {c : Char} (plain : c ≠ '%') (rest : List Char) :
    percentDecode (c :: rest) = String.utf8EncodeChar c ++ percentDecode rest := by
  -- Only the first case of the reader starts with a percent sign, and that is not what stands here.
  rw [percentDecode.eq_def]
  split
  · rename_i same
    exact absurd (List.cons.inj same).1 plain
  · rename_i same
    cases same
    rfl
  · rename_i same
    cases same

/-- What an encoded text ends in is decoded on its own, if that is no digit. -/
theorem percentDecode_concat {c : Char} (noDigit : hexValue? c = none) (cs : List Char) :
    percentDecode (cs ++ [c]) = percentDecode cs ++ String.utf8EncodeChar c := by
  -- On its own the character begins no encoded byte, as two digits are wanted behind a percent
  -- sign.
  have single : percentDecode [c] = String.utf8EncodeChar c := by
    rw [percentDecode, percentDecode, List.append_nil]
    exact nofun
  -- The cases are those of the decoder, and only what stands next to the end may reach for it.
  fun_induction percentDecode cs with
  | case1 a b rest high low isHigh isLow ih =>
    rw [List.cons_append, List.cons_append, List.cons_append, percentDecode, isHigh, isLow]
    exact congrArg _ ih
  | case2 a b rest noByte ih =>
    rw [List.cons_append, List.cons_append, List.cons_append, percentDecode]
    split
    · rename_i high low isHigh isLow
      exact absurd isLow (noByte high low isHigh)
    · rw [List.append_assoc, ← ih]
      rfl
  | case3 d rest other ih =>
    rw [List.append_assoc, ← ih]
    by_cases percent : d = '%'
    · subst percent
      match rest, other with
      | [], _ =>
        rw [List.singleton_append, percentDecode]
        · rfl
        · exact nofun
      | [a], _ =>
        show percentDecode ['%', a, c] = _
        rw [percentDecode, noDigit]
        split
        · rename_i none
          cases none
        · rfl
      | a :: b :: more, other => exact absurd rfl (other a b more rfl)
    · exact percentDecode_cons percent _
  | case4 => exact single.trans (List.nil_append _).symm

/-- What is encoded is decoded to the bytes of its characters, whatever follows it. -/
theorem percentDecode_percentEncode {keeps : Char → Bool} (encoded : keeps '%' = false)
    (cs rest : List Char) :
    percentDecode (percentEncode keeps cs ++ rest) =
      cs.flatMap String.utf8EncodeChar ++ percentDecode rest := by
  induction cs with
  | nil => rfl
  | cons c others ih =>
    rw [percentEncode, List.flatMap_cons, List.flatMap_cons, List.append_assoc, List.append_assoc,
      ← ih, percentEncode]
    -- A kept character is no percent sign, because that one is always encoded.
    by_cases kept : keeps c = true
    · have plain : c ≠ '%' := fun same => by rw [same, encoded] at kept; cases kept
      rw [if_pos kept, List.cons_append, List.nil_append, percentDecode_cons plain]
    · rw [if_neg kept, percentDecode_bytes]

/-- A text is read back from what is encoded of it. -/
theorem textOfUtf8_percentDecode {keeps : Char → Bool} (encoded : keeps '%' = false)
    (cs : List Char) :
    textOfUtf8 (percentDecode (percentEncode keeps cs)) = String.ofList cs := by
  -- The bytes are those of the text, with nothing behind them.
  have whole := percentDecode_percentEncode encoded cs []
  rw [List.append_nil, percentDecode, List.append_nil] at whole
  rw [whole, textOfUtf8_flatMap]

/-- A text of kept characters is encoded as it is. -/
theorem percentEncode_of_kept {keeps : Char → Bool} {cs : List Char}
    (kept : ∀ c ∈ cs, keeps c = true) : percentEncode keeps cs = cs := by
  -- The induction is on the characters, none of which is encoded.
  induction cs with
  | nil => rfl
  | cons c rest ih =>
    have later := ih fun d member => kept d (List.mem_cons_of_mem _ member)
    rw [percentEncode, List.flatMap_cons, if_pos (kept c List.mem_cons_self)]
    exact congrArg (c :: ·) later

/-- Only from nothing nothing is encoded. -/
theorem percentEncode_eq_nil_iff {keeps : Char → Bool} {cs : List Char} :
    percentEncode keeps cs = [] ↔ cs = [] := by
  refine ⟨fun none => ?_, fun none => by rw [none]; rfl⟩
  cases cs with
  | nil => rfl
  | cons c rest =>
    rw [percentEncode, List.flatMap_cons, List.append_eq_nil_iff] at none
    -- Every character has a byte, and each byte a percent sign.
    by_cases kept : keeps c = true
    · rw [if_pos kept] at none
      cases none.1
    · rw [if_neg kept, List.flatMap_eq_nil_iff] at none
      obtain ⟨b, bytes, encoded⟩ := List.exists_cons_of_ne_nil
        (show String.utf8EncodeChar c ≠ [] from String.utf8EncodeChar_ne_nil)
      exact absurd (none.1 b (encoded ▸ List.mem_cons_self)) (List.cons_ne_nil _ _)

/-- A text with something behind it is encoded in the same way only if that is nothing. -/
theorem percentEncode_append_eq_iff {keeps : Char → Bool} {cs more : List Char} :
    percentEncode keeps (cs ++ more) = percentEncode keeps cs ↔ more = [] := by
  -- Text is encoded character by character, and no character is encoded as nothing.
  have longer : percentEncode keeps (cs ++ more) =
      percentEncode keeps cs ++ percentEncode keeps more := List.flatMap_append
  rw [longer, List.append_right_eq_self, percentEncode_eq_nil_iff]

/-- A digit below sixteen is a letter or a digit of ASCII. -/
theorem isAsciiAlnum_upperHexDigit {n : Nat} (small : n < 16) :
    isAsciiAlnum (upperHexDigit n) = true := by
  -- The digits are few enough to be gone through.
  have all : ∀ m < 16, isAsciiAlnum (upperHexDigit m) = true := by decide
  exact all n small

/-- What is encoded holds kept characters, percent signs and digits only. -/
theorem mem_percentEncode {keeps : Char → Bool} {cs : List Char} {c : Char}
    (member : c ∈ percentEncode keeps cs) : keeps c = true ∨ c = '%' ∨ isAsciiAlnum c = true := by
  obtain ⟨source, -, inside⟩ := List.mem_flatMap.mp member
  by_cases kept : keeps source = true
  · rw [if_pos kept] at inside
    exact Or.inl (List.mem_singleton.mp inside ▸ kept)
  · rw [if_neg kept] at inside
    -- An encoded character is written byte by byte, each as a percent sign and two digits.
    obtain ⟨b, -, written⟩ := List.mem_flatMap.mp inside
    have bound : b.toNat < 256 := b.toNat_lt
    simp only [percentByte, List.mem_cons, List.not_mem_nil, or_false] at written
    rcases written with same | same | same
    · exact Or.inr (Or.inl same)
    · exact Or.inr (Or.inr (same ▸ isAsciiAlnum_upperHexDigit (by omega)))
    · exact Or.inr (Or.inr (same ▸ isAsciiAlnum_upperHexDigit (by omega)))

end ContentApi
