import ContentApi.Decimal.Binary64

/-! The shortest decimal that reads back as a given double, and of those the nearest. -/

namespace ContentApi

/-- A whole number times a power of ten. -/
structure Decimal where
  /-- The digits, read as one whole number. -/
  digits : Nat
  /-- The power of ten that multiplies the digits. -/
  power : Int
  deriving DecidableEq

/-- How many decimal digits a whole number has. -/
def digitCount (n : Nat) : Nat :=
  (Nat.toDigits 10 n).length

/-- The power of ten of the first digit of a positive quotient. -/
def leadingPower (num den : Nat) : Int :=
  if den ≤ num then (digitCount (num / den) : Int) - 1
  else
    let below := digitCount (den / num)
    if den ≤ num * Nat.pow 10 (below - 1) then 1 - (below : Int) else -(below : Int)

/-- The span of the reals that round to a double, in quarters of its last place. -/
structure RoundingSpan where
  /-- The lower end. -/
  least : Nat
  /-- The upper end. -/
  greatest : Nat
  /-- Whether the ends themselves round to the double. -/
  endsIncluded : Bool

/-- The span of a positive double, whose lower half is halved at a power of two. -/
def Binary64.roundingSpan (x : Binary64) : RoundingSpan :=
  let below := if x.significand = Nat.pow 2 52 ∧ -1074 < x.exponent then 1 else 2
  ⟨4 * x.significand - below, 4 * x.significand + 2, x.significand % 2 = 0⟩

/-- Whether a quotient, in quarters of the last place, lies in a span. -/
def RoundingSpan.contains (span : RoundingSpan) (num den : Nat) : Bool :=
  if span.endsIncluded then span.least * den ≤ num && num ≤ span.greatest * den
  else span.least * den < num && num < span.greatest * den

/-- Removes the zeros at the end of the digits, at most as many as the fuel allows. -/
def Decimal.dropZeros (d : Decimal) : Nat → Decimal
  | 0 => d
  | fuel + 1 =>
    if d.digits ≠ 0 ∧ d.digits % 10 = 0 then dropZeros ⟨d.digits / 10, d.power + 1⟩ fuel else d

/-- The decimal with a given last place that reads back as a double, if there is one. -/
def Binary64.decimalAt? (x : Binary64) (power : Int) : Option Decimal :=
  let value := x.magnitude
  let unit := if 0 ≤ power then (Nat.pow 10 power.toNat, 1) else (1, Nat.pow 10 (-power).toNat)
  -- The value in units of the last place, and a decimal's value in quarters of the double's.
  let num := value.1 * unit.2
  let den := value.2 * unit.1
  let low := num / den
  let quarters := scaleByTwo (4 * unit.1) unit.2 (-x.exponent)
  let fits := fun digits => x.roundingSpan.contains (digits * quarters.1) quarters.2
  let nearer := roundHalfEven num den
  let other := if nearer = low then low + 1 else low
  if fits nearer then some ⟨nearer, power⟩
  else if fits other then some ⟨other, power⟩
  else none

/-- The shortest decimal that reads back as a positive double, and of those the nearest. -/
def Binary64.shortest (x : Binary64) : Decimal :=
  let value := x.magnitude
  let top := leadingPower value.1 value.2
  -- Seventeen digits tell all doubles apart.
  let found := (List.range 17).findSome? fun (n : Nat) => x.decimalAt? (top - (n : Int))
  (found.getD ⟨0, 0⟩).dropZeros 17

end ContentApi
