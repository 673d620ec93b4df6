/-! Bytes written as lower-case hexadecimal digits. -/

namespace ContentApi

/-- Octets in the order they are sent. -/
abbrev Bytes := List UInt8

/-- The lower-case digit of a number below sixteen. -/
def hexDigit (n : Nat) : Char :=
  if n < 10 then Char.ofNat (48 + n) else Char.ofNat (87 + n)

/-- The upper-case digit of a number below sixteen. -/
def upperHexDigit (n : Nat) : Char :=
  if n < 10 then Char.ofNat (48 + n) else Char.ofNat (55 + n)

/-- The number a hexadecimal digit of either case stands for. -/
def hexValue? (c : Char) : Option Nat :=
  let n := c.toNat
  if 48 ≤ n ∧ n ≤ 57 then some (n - 48)
  else if 97 ≤ n ∧ n ≤ 102 then some (n - 87)
  else if 65 ≤ n ∧ n ≤ 70 then some (n - 55)
  else none

/-- The characters of a byte string, two lower-case digits for each byte. -/
def hexChars : Bytes → List Char
  | [] => []
  | b :: rest => hexDigit (b.toNat / 16) :: hexDigit (b.toNat % 16) :: hexChars rest

/-- The text of a byte string, two lower-case digits for each byte. -/
def toHex (bytes : Bytes) : String :=
  String.ofList (hexChars bytes)

/-- The byte string that pairs of digits stand for. -/
def bytesOfHexChars? : List Char → Option Bytes
  | [] => some []
  | [_] => none
  | high :: low :: rest => do
    let h ← hexValue? high
    let l ← hexValue? low
    let bytes ← bytesOfHexChars? rest
    return UInt8.ofNat (16 * h + l) :: bytes

/-- The byte string a hexadecimal text stands for. -/
def ofHex? (text : String) : Option Bytes :=
  bytesOfHexChars? text.toList

/-- The lower-case hexadecimal digits of a number, without leading zeros. -/
def natHexChars (n : Nat) : List Char :=
  if n < 16 then [hexDigit n] else natHexChars (n / 16) ++ [hexDigit (n % 16)]
termination_by n
decreasing_by omega

end ContentApi
