import ContentApi.Calendar.Reader
import ContentApi.Decimal.Layout

/-! Numbers as they are written in settings. -/

namespace ContentApi

/-- A double, where one that is no number or infinite may be written too. -/
inductive RealSetting where
  | finite (x : Binary64)
  | infinite (negative : Bool)
  | notANumber
  deriving DecidableEq

/-- A sign taken from the front of a text, and whether it is minus. -/
def splitSign : List Char → Bool × List Char
  | '-' :: rest => (true, rest)
  | '+' :: rest => (false, rest)
  | cs => (false, cs)

/-- The number that digits are, if there are any and nothing else. -/
def digitsOf? (cs : List Char) : Option Nat :=
  if cs.isEmpty ∨ !cs.all Char.isDigit then none else some (digitsValue cs)

/-- A whole number with or without a sign, if it fits in 64 bits. -/
def wholeOf? (cs : List Char) : Option Int := do
  let signed := splitSign cs
  let magnitude ← digitsOf? signed.2
  let value : Int := if signed.1 then -magnitude else magnitude
  if -(Nat.pow 2 63) ≤ value ∧ value < Nat.pow 2 63 then some value else none

/-- A number of 64 bits without a minus sign. -/
def countOf? : List Char → Option Nat
  | '-' :: _ => none
  | cs => (digitsOf? (splitSign cs).2).bind fun n => if n < Nat.pow 2 64 then some n else none

/-- A power of ten after its letter, or the power zero at the end of a text. -/
def powerOf? : List Char → Option Int
  | [] => some 0
  | c :: rest =>
    if c = 'e' ∨ c = 'E' then
      let signed := splitSign rest
      (digitsOf? signed.2).map fun n => if signed.1 then -(n : Int) else n
    else none

/-- The double nearest to digits around a point, at least one of them, with or without a power. -/
def decimalOf? (negative : Bool) (cs : List Char) : Option RealSetting := do
  let whole := cs.takeWhile Char.isDigit
  let rest := cs.dropWhile Char.isDigit
  let fraction := match rest with
    | '.' :: rest => rest.takeWhile Char.isDigit
    | _ => []
  let rest := match rest with
    | '.' :: rest => rest.dropWhile Char.isDigit
    | rest => rest
  let power ← powerOf? rest
  let digits := whole ++ fraction
  if digits.isEmpty then none
  else
    match Binary64.ofDecimal? negative (digitsValue digits) (power - fraction.length) with
    | some x => some (.finite x)
    | none => some (.infinite negative)

/-- A character in lower case if that is a letter of ASCII. The Kelvin sign is the only other one
that has such a lower case. -/
def lowerChar (c : Char) : Char := if c = '\u212a' then 'k' else c.toLower

/-- A text in lower case, as far as its letters are then those of ASCII. -/
def lowerChars (cs : List Char) : List Char := cs.map lowerChar

/-- A double with or without a sign. -/
def realOf? (cs : List Char) : Option RealSetting :=
  let signed := splitSign cs
  let word := lowerChars signed.2
  if word = "inf".toList ∨ word = "infinity".toList then some (.infinite signed.1)
  else if word = "nan".toList then some .notANumber
  else decimalOf? signed.1 signed.2

/-- The text of a double, which has no exponent, and no point if it is whole. -/
def RealSetting.render : RealSetting → String
  | .finite x => x.render .setting
  | .infinite false => "inf"
  | .infinite true => "-inf"
  | .notANumber => "NaN"

/-- The whole number of 64 bits nearest to a double, a half going up. What is below zero or no
number counts as zero. -/
def RealSetting.toCount : RealSetting → Nat
  | .finite x => if x.negative then 0 else min x.roundedMagnitude (Nat.pow 2 64 - 1)
  | .infinite false => Nat.pow 2 64 - 1
  | .infinite true | .notANumber => 0

end ContentApi
