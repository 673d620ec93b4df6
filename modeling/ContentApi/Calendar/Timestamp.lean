import ContentApi.Calendar.Date

/-! Instants in universal time and the one form in which they are sent. -/

namespace ContentApi

/-- Whether seconds and nanoseconds are an instant of the supported years. Any second may have up to
two thousand million nanoseconds. -/
def IsInstant (seconds : Int) (nanos : Nat) : Prop :=
  -8334601228800 ≤ seconds ∧ seconds ≤ 8210266876799 ∧ nanos < 2000000000

instance (seconds : Int) (nanos : Nat) : Decidable (IsInstant seconds nanos) :=
  inferInstanceAs (Decidable (_ ∧ _ ∧ _))

/-- An instant of the years -262143 to 262142. -/
structure Timestamp where
  /-- The whole seconds from the first of January 1970. -/
  seconds : Int
  /-- The nanoseconds since then. A second of sixty counts as the one before it with a thousand
  million nanoseconds more; behind any other second so many are possible too. -/
  nanos : Nat
  isInstant : IsInstant seconds nanos
  deriving DecidableEq

namespace Timestamp

/-- The instant at given seconds and nanoseconds, if there is one whose nanoseconds are those of its
second or of a leap second that ends a minute. -/
def ofUnix? (seconds : Int) (nanos : Nat) : Option Timestamp :=
  if h : IsInstant seconds nanos ∧ (1000000000 ≤ nanos → seconds % 60 = 59) then
    some ⟨seconds, nanos, h.1⟩
  else none

/-- The day of an instant. -/
def date (t : Timestamp) : CalendarDate :=
  CalendarDate.ofDays (t.seconds / 86400)

/-- The seconds of the day before an instant. -/
def secondOfDay (t : Timestamp) : Nat :=
  (t.seconds % 86400).toNat

end Timestamp

/-- A number in decimal, filled up with zeros in front. -/
def paddedChars (width n : Nat) : List Char :=
  let digits := Nat.toDigits 10 n
  List.replicate (width - digits.length) '0' ++ digits

/-- A year, which has a sign unless it takes exactly four digits. -/
def yearChars (year : Int) : List Char :=
  if 0 ≤ year ∧ year ≤ 9999 then paddedChars 4 year.toNat
  else (if year < 0 then '-' else '+') :: paddedChars 4 year.natAbs

/-- The form in which an instant is sent: to the second, in universal time. -/
def Timestamp.chars (t : Timestamp) : List Char :=
  let date := t.date
  let time := t.secondOfDay
  -- A thousand million nanoseconds are shown as a second more, which is sixty in a leap second.
  let second := time % 60 + t.nanos / 1000000000
  yearChars date.year ++ '-' :: paddedChars 2 date.month ++ '-' :: paddedChars 2 date.day ++
    'T' :: paddedChars 2 (time / 3600) ++ ':' :: paddedChars 2 (time / 60 % 60) ++
    ':' :: paddedChars 2 second ++ ['+', '0', '0', ':', '0', '0']

/-- The text of an instant, to the second and in universal time. -/
def Timestamp.format (t : Timestamp) : String :=
  String.ofList t.chars

end ContentApi
