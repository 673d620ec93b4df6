import ContentApi.Text.Hex

/-! Base64: bytes written as digits of six bits each. -/

namespace ContentApi

/-- The digit of a number below sixty-four. -/
def base64Digit (n : Nat) : Char :=
  if n < 26 then Char.ofNat (65 + n)
  else if n < 52 then Char.ofNat (71 + n)
  else if n < 62 then Char.ofNat (n - 4)
  else if n = 62 then '+' else '/'

/-- The digits of a byte string, four for every three bytes. The last digits are filled up with bits
of zero, and their number with equals signs. -/
def base64Chars : Bytes → List Char
  | a :: b :: c :: rest =>
    let bits := 65536 * a.toNat + 256 * b.toNat + c.toNat
    base64Digit (bits / 262144) :: base64Digit (bits / 4096 % 64) ::
      base64Digit (bits / 64 % 64) :: base64Digit (bits % 64) :: base64Chars rest
  | [a, b] =>
    let bits := 1024 * a.toNat + 4 * b.toNat
    [base64Digit (bits / 4096), base64Digit (bits / 64 % 64), base64Digit (bits % 64), '=']
  | [a] =>
    let bits := 16 * a.toNat
    [base64Digit (bits / 64), base64Digit (bits % 64), '=', '=']
  | [] => []

end ContentApi
