import ContentApi.Text.Utf8

/-! Percent-encoding: bytes that may not stand for themselves are written as two digits. -/

namespace ContentApi

/-- A byte as a percent sign and two upper-case digits. -/
def percentByte (b : UInt8) : List Char :=
  ['%', upperHexDigit (b.toNat / 16), upperHexDigit (b.toNat % 16)]

/-- Characters of which those that may not stand for themselves are written byte by byte. -/
def percentEncode (keeps : Char → Bool) (cs : List Char) : List Char :=
  cs.flatMap fun c => if keeps c then [c] else (String.utf8EncodeChar c).flatMap percentByte

/-- The bytes of a percent-encoded text. A percent sign without two digits stands for itself. -/
def percentDecode : List Char → Bytes
  | '%' :: a :: b :: rest =>
    match hexValue? a, hexValue? b with
    | some high, some low => UInt8.ofNat (16 * high + low) :: percentDecode rest
    | _, _ => String.utf8EncodeChar '%' ++ percentDecode (a :: b :: rest)
  | c :: rest => String.utf8EncodeChar c ++ percentDecode rest
  | [] => []

/-- Whether a character is an ASCII letter or digit. -/
def isAsciiAlnum (c : Char) : Bool :=
  c.isAlpha || c.isDigit

/-- Whether a character may stand for itself in a value that fills one path segment. -/
def keepsInSegment (c : Char) : Bool :=
  isAsciiAlnum c || c == '-' || c == '_' || c == '.' || c == '~'

/-- Whether a character is visible ASCII or the space. -/
def isPlainAscii (c : Char) : Bool :=
  0x20 ≤ c.toNat && c.toNat < 0x7F

/-- Whether a character may stand for itself in a fragment. -/
def keepsInFragment (c : Char) : Bool :=
  isPlainAscii c && !(c == ' ' || c == '"' || c == '<' || c == '>' || c == '\x60')

/-- Whether a character may stand for itself in a path. -/
def keepsInPath (c : Char) : Bool :=
  keepsInFragment c && !(c == '#' || c == '?' || c == '^' || c == '\x7b' || c == '\x7d')

/-- Whether a character may stand for itself in a user name or a password. -/
def keepsInUser (c : Char) : Bool :=
  keepsInPath c && !(c == '/' || c == ':' || c == ';' || c == '=' || c == '@' || c == '[' ||
    c == '\\' || c == ']' || c == '|')

/-- Whether a character may stand for itself in a query, where web addresses also encode quotes. -/
def keepsInQuery (special : Bool) (c : Char) : Bool :=
  isPlainAscii c && !(c == ' ' || c == '"' || c == '#' || c == '<' || c == '>') &&
    !(special && c == '\'')

end ContentApi
