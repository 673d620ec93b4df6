/-! Finite doubles as exact values, and the rounding of exact quotients to them. -/

namespace ContentApi

/-- Whether a significand and a power of two are the one form a finite double is kept in. -/
def CanonicalBinary64 (significand : Nat) (exponent : Int) : Prop :=
  -- A significand below its full width is kept for the least exponent alone.
  significand < Nat.pow 2 53 ∧ -1074 ≤ exponent ∧ exponent ≤ 971 ∧
    (Nat.pow 2 52 ≤ significand ∨ exponent = -1074)

instance (significand : Nat) (exponent : Int) :
    Decidable (CanonicalBinary64 significand exponent) :=
  inferInstanceAs (Decidable (_ ∧ _ ∧ _ ∧ (_ ∨ _)))

/-- A finite double, worth its significand times two to its exponent. -/
structure Binary64 where
  /-- Whether the sign is minus, which zero may also have. -/
  negative : Bool
  /-- The whole number that the power of two multiplies. -/
  significand : Nat
  /-- The power of two. -/
  exponent : Int
  canonical : CanonicalBinary64 significand exponent
  deriving DecidableEq

/-- The quotient rounded to the nearest whole number, a half going to the even neighbour. -/
def roundHalfEven (num den : Nat) : Nat :=
  let whole := num / den
  let rest := num % den
  if 2 * rest < den ∨ (2 * rest = den ∧ whole % 2 = 0) then whole else whole + 1

/-- Numerator and denominator of a quotient multiplied by a power of two. -/
def scaleByTwo (num den : Nat) (power : Int) : Nat × Nat :=
  if 0 ≤ power then (num * Nat.pow 2 power.toNat, den) else (num, den * Nat.pow 2 (-power).toNat)

namespace Binary64

/-- Zero of either sign. -/
def zero (negative : Bool) : Binary64 :=
  ⟨negative, 0, -1074, by decide⟩

/-- The double nearest to a quotient, or nothing if that is infinite. -/
def ofRatio? (negative : Bool) (num den : Nat) : Option Binary64 :=
  if num = 0 ∨ den = 0 then some (zero negative)
  else
    -- The quotient over this power of two lies strictly between 2 ^ 52 and 2 ^ 54.
    let guess := max (-1074) ((num.log2 : Int) - (den.log2 : Int) - 53)
    let first := scaleByTwo num den (-guess)
    let exponent := if Nat.pow 2 53 ≤ first.1 / first.2 then guess + 1 else guess
    let scaled := scaleByTwo num den (-exponent)
    let rounded := roundHalfEven scaled.1 scaled.2
    let carried :=
      if rounded = Nat.pow 2 53 then (Nat.pow 2 52, exponent + 1) else (rounded, exponent)
    if h : CanonicalBinary64 carried.1 carried.2 then some ⟨negative, carried.1, carried.2, h⟩
    else none

/-- The double nearest to a product, or nothing if that is infinite. -/
def mul? (a b : Binary64) : Option Binary64 :=
  let scaled := scaleByTwo (a.significand * b.significand) 1 (a.exponent + b.exponent)
  ofRatio? (a.negative != b.negative) scaled.1 scaled.2

/-- The double nearest to a quotient by a divisor other than zero. -/
def div? (a b : Binary64) : Option Binary64 :=
  let scaled := scaleByTwo a.significand b.significand (a.exponent - b.exponent)
  ofRatio? (a.negative != b.negative) scaled.1 scaled.2

/-- The double nearest to a decimal, or nothing if that is infinite. -/
def ofDecimal? (negative : Bool) (digits : Nat) (power : Int) : Option Binary64 :=
  let width : Int := digits.log2 / 3 + 1
  -- The outer cases keep the powers of ten below small.
  if digits = 0 ∨ power + width < -400 then some (zero negative)
  else if 400 < power then none
  else if 0 ≤ power then ofRatio? negative (digits * Nat.pow 10 power.toNat) 1
  else ofRatio? negative digits (Nat.pow 10 (-power).toNat)

/-- The value without its sign as a quotient of whole numbers. -/
def magnitude (x : Binary64) : Nat × Nat :=
  scaleByTwo x.significand 1 x.exponent

/-- The value rounded to a whole number, a half going away from zero, without its sign. -/
def roundedMagnitude (x : Binary64) : Nat :=
  let value := x.magnitude
  (2 * value.1 + value.2) / (2 * value.2)

end Binary64

end ContentApi
