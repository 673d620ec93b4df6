import ContentApi.Calendar.Reader
import ContentApi.Config.Number

/-! Dates and times in TOML documents, which settings keep as text. -/

namespace ContentApi

/-- A number of exactly so many digits in a range, taken from the front of a text. -/
def takeFixed? (width greatest : Nat) (cs : List Char) : Option (Nat × List Char) :=
  match digitsOf? (cs.take width) with
  | some n =>
    if (cs.take width).length = width ∧ n ≤ greatest then some (n, cs.drop width) else none
  | none => none

/-- Takes a given character from the front of a text. -/
def takeMark? (c : Char) : List Char → Option (List Char)
  | [] => none
  | d :: rest => if d = c then some rest else none

/-- A date taken from the front of a text. -/
def takeDate? (cs : List Char) : Option (List Char × List Char) := do
  let year ← takeFixed? 4 9999 cs
  let month ← takeFixed? 2 12 (← takeMark? '-' year.2)
  let day ← takeFixed? 2 31 (← takeMark? '-' month.2)
  if CalendarDate.IsValid ⟨year.1, month.1, day.1⟩ then some (cs.take 10, day.2) else none

/-- The fraction of a second at the front of a text, to nine digits and without zeros at the end. -/
def takeFractionChars? : List Char → Option (List Char × List Char)
  | '.' :: rest =>
    let digits := rest.takeWhile Char.isDigit
    let kept := ((digits.take 9).reverse.dropWhile (· == '0')).reverse
    if digits.isEmpty then none
    else some (if kept.isEmpty then [] else '.' :: kept, rest.drop digits.length)
  | cs => some ([], cs)

/-- A time of day taken from the front of a text. -/
def takeTime? (cs : List Char) : Option (List Char × List Char) := do
  let hour ← takeFixed? 2 23 cs
  let minute ← takeFixed? 2 59 (← takeMark? ':' hour.2)
  let second ← takeFixed? 2 60 (← takeMark? ':' minute.2)
  let fraction ← takeFractionChars? second.2
  return (cs.take 8 ++ fraction.1, fraction.2)

/-- The distance from universal time that a text is, if it is any or empty. -/
def zoneChars? : List Char → Option (List Char)
  | [] => some []
  | ['Z'] => some ['Z']
  | ['z'] => some ['Z']
  | sign :: rest => do
    if sign ≠ '+' ∧ sign ≠ '-' then none
    let hour ← takeFixed? 2 23 rest
    let minute ← takeFixed? 2 59 (← takeMark? ':' hour.2)
    if !minute.2.isEmpty then none
    -- Universal time has no minus sign.
    return (if hour.1 = 0 ∧ minute.1 = 0 then '+' else sign) :: rest

/-- Whether a text is a date. -/
def isDateText (cs : List Char) : Bool :=
  match takeDate? cs with
  | some (_, []) => true
  | _ => false

/-- A date, a time or both, with a letter between them. -/
def momentChars? (cs : List Char) : Option (List Char) :=
  match takeDate? cs with
  | some (date, []) => some date
  | some (date, c :: rest) =>
    if c = 'T' ∨ c = 't' ∨ c = ' ' then do
      let time ← takeTime? rest
      return date ++ 'T' :: (time.1 ++ (← zoneChars? time.2))
    else none
  | none =>
    match takeTime? cs with
    | some (time, []) => some time
    | _ => none

end ContentApi
