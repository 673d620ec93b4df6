import ContentApi.Calendar.Timestamp
import ContentApi.Text.Blank

/-! The reading of timestamps, whose offset from universal time may be written in several forms. -/

namespace ContentApi

/-- Why a text is no timestamp. -/
inductive DateFault where
  | invalid
  | outOfRange
  | tooShort
  | trailing
  | impossible
  deriving DecidableEq

/-- The words for why a text is no timestamp. -/
def DateFault.message : DateFault → String
  | .invalid => "input contains invalid characters"
  | .outOfRange => "input is out of range"
  | .tooShort => "premature end of input"
  | .trailing => "trailing input"
  | .impossible => "no possible date and time matching input"

/-- A reader takes something from the front of a text and leaves the rest. -/
abbrev DateReader := StateT (List Char) (Except DateFault)

/-- The number that digits stand for. -/
def digitsValue (digits : List Char) : Nat :=
  digits.foldl (fun n c => 10 * n + (c.toNat - 48)) 0

/-- Takes a number of so many digits. -/
def takeDigits (least : Nat) (greatest : Option Nat) : DateReader Nat := fun cs =>
  let all := cs.takeWhile Char.isDigit
  let digits := match greatest with
    | some n => all.take n
    | none => all
  let value := digitsValue digits
  -- A text that is too short is told apart from one with other characters.
  if cs.length < least then .error .tooShort
  else if digits.length < least then .error .invalid
  else if Nat.pow 2 63 ≤ value then .error .outOfRange
  else .ok (value, cs.drop digits.length)

/-- Takes one given character. -/
def takeChar (c : Char) : DateReader Unit
  | [] => .error .tooShort
  | d :: rest => if d = c then .ok ((), rest) else .error .invalid

/-- Takes blanks. -/
def takeBlanks : DateReader Unit := fun cs => .ok ((), cs.dropWhile isBlank)

/-- Takes nothing from a text that is at its end. -/
def takeEnd : DateReader Unit := fun cs =>
  if cs.isEmpty then .ok ((), []) else .error .trailing

/-- A number that must lie in a range. -/
def inRange (least greatest : Nat) (reader : DateReader Nat) : DateReader Nat := do
  let n ← reader
  if least ≤ n ∧ n ≤ greatest then return n else throw .outOfRange

/-- What a clock and a calendar show at some distance from universal time. -/
structure ClockReading where
  /-- The day. -/
  date : CalendarDate
  /-- The hour of the day. -/
  hour : Nat
  /-- The minute of the hour. -/
  minute : Nat
  /-- The second of the minute, sixty in a leap second. -/
  second : Nat
  /-- The nanoseconds of the second. -/
  nanos : Nat
  /-- How many minutes the clock is ahead of universal time. -/
  offset : Int
  deriving DecidableEq

/-- The seconds that the clock is after the start of 1970 on its own calendar. -/
def ClockReading.localSeconds (r : ClockReading) : Int :=
  -- The second of sixty counts as the one before it, and its nanoseconds make up for that.
  let second := if r.second = 60 then 59 else r.second
  r.date.toDays * 86400 + ((r.hour * 3600 + r.minute * 60 + second : Nat) : Int)

/-- The instant at which a clock shows what it shows. -/
def ClockReading.toTimestamp (r : ClockReading) : Except DateFault Timestamp :=
  let nanos := if r.second = 60 then r.nanos + 1000000000 else r.nanos
  if ¬r.date.IsValid ∨ r.date.year < -262143 ∨ 262142 < r.date.year then .error .outOfRange
  else if r.offset ≤ -1440 ∨ 1440 ≤ r.offset then .error .outOfRange
  else
    match Timestamp.ofUnix? (r.localSeconds - r.offset * 60) nanos with
    | some t => .ok t
    | none => .error .impossible

/-- Takes the sign of an offset, plus, hyphen or the minus sign, and tells whether it is minus. -/
def takeSign : DateReader Bool
  | [] => .error .tooShort
  | c :: rest =>
    if c = '+' then .ok (false, rest)
    else if c = '-' ∨ c = '\u2212' then .ok (true, rest)
    else .error .invalid

/-- Takes the two digits of an hour or a minute of an offset, the first of which has a limit. -/
def takePair (limit : Nat) : DateReader Nat
  | a :: b :: rest =>
    if a.isDigit && b.isDigit then
      if digitsValue [a] ≤ limit then .ok (digitsValue [a, b], rest) else .error .outOfRange
    else .error .invalid
  -- Characters of more than one byte are seen to be no digits before the end is.
  | [c] => .error (if 1 < c.utf8Size then .invalid else .tooShort)
  | [] => .error .tooShort

/-- Takes an offset in minutes, between whose hours and minutes a divider is taken. -/
def takeOffset (divider : DateReader Unit) : DateReader Int := do
  let negative ← takeSign
  let hour ← takePair 9
  divider
  let minute ← takePair 5
  let minutes : Int := (60 * hour + minute : Nat)
  return if negative then -minutes else minutes

/-- Takes an offset with a colon, or the letter that stands for universal time. -/
def takeStrictOffset : DateReader Int
  | 'Z' :: rest => .ok (0, rest)
  | 'z' :: rest => .ok (0, rest)
  | cs => takeOffset (takeChar ':') cs

/-- Takes an offset after blanks, with or without colons and blanks inside. -/
def takeLooseOffset : DateReader Int := do
  takeBlanks
  takeOffset fun cs => .ok ((), cs.dropWhile fun c => c == ':' || isBlank c)

/-- Takes the fraction of a second, if there is one, in nanoseconds. -/
def takeFraction : DateReader Nat
  | '.' :: rest =>
    let digits := rest.takeWhile Char.isDigit
    -- Nine digits count.
    let kept := digits.take 9
    if rest.isEmpty then .error .tooShort
    else if digits.isEmpty then .error .invalid
    else .ok (digitsValue kept * Nat.pow 10 (9 - kept.length), rest.drop digits.length)
  | cs => .ok (0, cs)

/-- Takes the letter or the blank between date and time. -/
def takeDateEnd : DateReader Unit
  | [] => .error .tooShort
  | c :: rest => if c = 't' ∨ c = 'T' ∨ c = ' ' then .ok ((), rest) else .error .invalid

/-- Takes a clock reading of fixed width, with a fraction or without. -/
def takeStrict : DateReader ClockReading := do
  let year ← takeDigits 4 (some 4)
  takeChar '-'
  let month ← inRange 1 12 (takeDigits 2 (some 2))
  takeChar '-'
  let day ← inRange 1 31 (takeDigits 2 (some 2))
  takeDateEnd
  let hour ← inRange 0 23 (takeDigits 2 (some 2))
  takeChar ':'
  let minute ← inRange 0 59 (takeDigits 2 (some 2))
  takeChar ':'
  let second ← inRange 0 60 (takeDigits 2 (some 2))
  let nanos ← takeFraction
  let offset ← takeStrictOffset
  takeEnd
  return ⟨⟨year, month, day⟩, hour, minute, second, nanos, offset⟩

/-- Takes a year with a sign and any number of digits, or without one and at most four. -/
def takeYear : DateReader Int := do
  takeBlanks
  let year : Int ← fun cs => match cs with
    | '-' :: rest => (takeDigits 1 none rest).map fun taken => (-(taken.1 : Int), taken.2)
    | '+' :: rest => (takeDigits 1 none rest).map fun taken => ((taken.1 : Int), taken.2)
    -- Without a sign, a year has at most four digits.
    | cs => (takeDigits 1 (some 4) cs).map fun taken => ((taken.1 : Int), taken.2)
  if -(Nat.pow 2 31) ≤ year ∧ year < Nat.pow 2 31 then return year else throw .outOfRange

/-- Takes one or two digits after blanks. -/
def takeLoose : DateReader Nat := do
  takeBlanks
  takeDigits 1 (some 2)

/-- Takes a clock reading of free width, whose offset may lack the colon. -/
def takeLooseReading : DateReader ClockReading := do
  let year ← takeYear
  takeChar '-'
  let month ← inRange 1 12 takeLoose
  takeChar '-'
  let day ← inRange 1 31 takeLoose
  takeChar 'T'
  let hour ← inRange 0 23 takeLoose
  takeChar ':'
  let minute ← inRange 0 59 takeLoose
  takeChar ':'
  let second ← inRange 0 60 takeLoose
  let offset ← takeLooseOffset
  takeEnd
  return ⟨⟨year, month, day⟩, hour, minute, second, 0, offset⟩

/-- The instant that a reader finds in a whole text. -/
def instantBy (reader : DateReader ClockReading) (cs : List Char) : Except DateFault Timestamp := do
  let taken ← reader cs
  taken.1.toTimestamp

/-- The instant a text stands for. The strict form is tried first, and the loose form's fault is
the one reported. -/
def Timestamp.parseChars (cs : List Char) : Except DateFault Timestamp :=
  let trimmed := trimChars cs
  match instantBy takeStrict trimmed with
  | .ok t => .ok t
  | .error _ => instantBy takeLooseReading trimmed

/-- The instant a text stands for, or why it stands for none. -/
def Timestamp.parse (text : String) : Except DateFault Timestamp :=
  Timestamp.parseChars text.toList

end ContentApi
