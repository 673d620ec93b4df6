import ContentApi.Decimal.Shortest

/-! Doubles written in decimal, with or without an exponent. -/

namespace ContentApi

/-- How a shortest decimal is written out. -/
structure RealLayout where
  /-- The least power of the first digit that is written without an exponent. -/
  leastPlain : Int
  /-- The greatest power of the first digit that is written without an exponent. -/
  greatestPlain : Int
  /-- Whether a whole number ends in a point and a zero. -/
  marksWhole : Bool

/-- Numbers in documents have an exponent from 10 ^ 16 up and below 10 ^ -5. -/
def RealLayout.document : RealLayout :=
  ⟨-5, 15, true⟩

/-- Settings are written without an exponent, and whole numbers without a point. -/
def RealLayout.setting : RealLayout :=
  ⟨-400, 400, false⟩

/-- A power of ten written with its sign and at least two digits. -/
def exponentChars (power : Int) : List Char :=
  let digits := Nat.toDigits 10 power.natAbs
  (if power < 0 then '-' else '+') :: (if digits.length < 2 then '0' :: digits else digits)

/-- A positive decimal in a given layout. -/
def Decimal.chars (layout : RealLayout) (d : Decimal) : List Char :=
  let digits := Nat.toDigits 10 d.digits
  let top := d.power + (digits.length : Int) - 1
  if layout.leastPlain ≤ top ∧ top ≤ layout.greatestPlain then
    if 0 ≤ d.power then
      digits ++ List.replicate d.power.toNat '0' ++ (if layout.marksWhole then ['.', '0'] else [])
    else if 0 ≤ top then
      digits.take (top.toNat + 1) ++ '.' :: digits.drop (top.toNat + 1)
    else
      '0' :: '.' :: (List.replicate (-top - 1).toNat '0' ++ digits)
  else
    -- One digit stands before the point, and the point stands only before another digit.
    let rest := digits.drop 1
    digits.take 1 ++ (if rest.isEmpty then [] else '.' :: rest) ++ 'e' :: exponentChars top

/-- The text of a double in a given layout. -/
def Binary64.render (layout : RealLayout) (x : Binary64) : String :=
  let body :=
    if x.significand = 0 then '0' :: (if layout.marksWhole then ['.', '0'] else [])
    else x.shortest.chars layout
  String.ofList (if x.negative then '-' :: body else body)

end ContentApi
