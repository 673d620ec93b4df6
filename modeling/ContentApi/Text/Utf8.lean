import ContentApi.Text.Hex

/-! UTF-8: the bytes of a text, and texts read from bytes that may be malformed. -/

namespace ContentApi

/-- The bytes of a text. -/
def utf8Bytes (text : String) : Bytes :=
  text.toUTF8.toList

/-- The bytes of a text, if they are well formed. -/
def textOfUtf8? (bytes : Bytes) : Option String :=
  String.fromUTF8? ⟨bytes.toArray⟩

/-- A character whose bytes are still coming: the bits so far, and the span of the next byte. -/
structure Utf8Pending where
  /-- The bits of the bytes read so far. -/
  bits : Nat
  /-- How many more bytes the character needs. -/
  missing : Nat
  /-- The least value of the next byte. -/
  least : Nat
  /-- The greatest value of the next byte. -/
  greatest : Nat

/-- What a byte at the start of a character means: a character, a beginning, or neither. -/
def utf8Start (b : Nat) : List Char × Option Utf8Pending :=
  -- The second byte's span keeps out overlong forms, surrogates and values above U+10FFFF.
  if b < 0x80 then ([Char.ofNat b], none)
  else if 0xC2 ≤ b ∧ b ≤ 0xDF then ([], some ⟨b - 0xC0, 1, 0x80, 0xBF⟩)
  else if b = 0xE0 then ([], some ⟨0, 2, 0xA0, 0xBF⟩)
  else if b = 0xED then ([], some ⟨0xD, 2, 0x80, 0x9F⟩)
  else if 0xE1 ≤ b ∧ b ≤ 0xEF then ([], some ⟨b - 0xE0, 2, 0x80, 0xBF⟩)
  else if b = 0xF0 then ([], some ⟨0, 3, 0x90, 0xBF⟩)
  else if b = 0xF4 then ([], some ⟨4, 3, 0x80, 0x8F⟩)
  else if 0xF1 ≤ b ∧ b ≤ 0xF3 then ([], some ⟨b - 0xF0, 3, 0x80, 0xBF⟩)
  else (['\uFFFD'], none)

/-- The characters of a byte string, given the character that is still incomplete. -/
def utf8Chars : Option Utf8Pending → Bytes → List Char
  | none, [] => []
  | some _, [] => ['\uFFFD']
  | none, b :: rest =>
    let step := utf8Start b.toNat
    step.1 ++ utf8Chars step.2 rest
  | some p, b :: rest =>
    let n := b.toNat
    if p.least ≤ n ∧ n ≤ p.greatest then
      let bits := 64 * p.bits + (n - 0x80)
      if p.missing = 1 then Char.ofNat bits :: utf8Chars none rest
      else utf8Chars (some ⟨bits, p.missing - 1, 0x80, 0xBF⟩) rest
    else
      -- The broken beginning counts as one mark, and the byte starts over.
      let step := utf8Start n
      '\uFFFD' :: (step.1 ++ utf8Chars step.2 rest)

/-- The text of a byte string, with U+FFFD for every longest piece that starts no character. -/
def textOfUtf8 (bytes : Bytes) : String :=
  String.ofList (utf8Chars none bytes)

end ContentApi
