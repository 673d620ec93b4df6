import ContentApi.Proofs.Calendar.Days
import ContentApi.Proofs.Calendar.Digits

/-! An instant is read back from the form in which it is sent, to the second. -/

namespace ContentApi

/-- A reader goes on with what it left once it has taken something. -/
theorem DateReader.bind_ok {α β : Type} {reader : DateReader α} {next : α → DateReader β}
    {cs rest : List Char} {value : α} (taken : reader cs = .ok (value, rest)) :
    (reader >>= next) cs = next value rest := by
  -- Readers are put together by the bind of results, which opens once the first one has taken
  -- something.
  show (reader cs).bind (fun taken => next taken.1 taken.2) = _
  rw [taken]
  rfl

/-- A reader that takes a number in a range takes it as before. -/
theorem inRange_ok {least greatest n : Nat} {reader : DateReader Nat} {cs rest : List Char}
    (taken : reader cs = .ok (n, rest)) (above : least ≤ n) (below : n ≤ greatest) :
    inRange least greatest reader cs = .ok (n, rest) := by
  rw [inRange, DateReader.bind_ok taken, if_pos ⟨above, below⟩]
  rfl

/-- A given character is taken where it stands. -/
theorem takeChar_ok (c : Char) (rest : List Char) : takeChar c (c :: rest) = .ok ((), rest) := by
  simp [takeChar]

/-- No blanks are taken where none stand. -/
theorem takeBlanks_ok {c : Char} (dark : isBlank c = false) (rest : List Char) :
    takeBlanks (c :: rest) = .ok ((), c :: rest) := by
  simp [takeBlanks, dark]

/-- No digit is blank. -/
theorem isBlank_of_isDigit {c : Char} (digit : c.isDigit = true) : isBlank c = false := by
  -- Digits lie between 48 and 57, where there is no blank.
  rw [Char.isDigit_iff_toNat] at digit
  have low : 48 ≤ c.toNat := digit.1
  have high : c.toNat ≤ 57 := digit.2
  simp only [isBlank, Bool.or_eq_false_iff, Bool.and_eq_false_iff, decide_eq_false_iff_not,
    beq_eq_false_iff_ne]
  omega

/-- A padded number of two digits is taken with free width too, whatever follows. -/
theorem takeLoose_paddedChars {n : Nat} (fits : n < 100) (rest : List Char) :
    takeLoose (paddedChars 2 n ++ rest) = .ok (n, rest) := by
  -- Two digits fill the greatest width, so that a third one would not be taken.
  have taken := takeDigits_paddedChars 1 2 (by decide) (by decide) fits (by omega) rest
  have digits := fun c (member : c ∈ paddedChars 2 n) => isDigit_of_mem_paddedChars member
  have length := length_paddedChars_pos 2 n
  -- The number begins with a digit, so there is no blank to pass over.
  cases shape : paddedChars 2 n with
  | nil => simp [shape] at length
  | cons first others =>
    rw [shape] at taken digits
    rw [takeLoose, List.cons_append,
      DateReader.bind_ok (takeBlanks_ok (isBlank_of_isDigit (digits first List.mem_cons_self)) _)]
    exact taken

/-- The clock reading of an instant in universal time. -/
def Timestamp.reading (t : Timestamp) : ClockReading :=
  { date := t.date
    hour := t.secondOfDay / 3600
    minute := t.secondOfDay / 60 % 60
    second := t.secondOfDay % 60 + t.nanos / 1000000000
    nanos := 0
    offset := 0 }

/-- The characters of a clock reading in universal time after its year. -/
def ClockReading.tailChars (r : ClockReading) : List Char :=
  '-' :: (paddedChars 2 r.date.month ++ '-' :: (paddedChars 2 r.date.day ++
    'T' :: (paddedChars 2 r.hour ++ ':' :: (paddedChars 2 r.minute ++
      ':' :: (paddedChars 2 r.second ++ ['+', '0', '0', ':', '0', '0'])))))

/-- The characters of a clock reading between its year and its offset, and then others. -/
def ClockReading.charsBefore (r : ClockReading) (rest : List Char) : List Char :=
  '-' :: (paddedChars 2 r.date.month ++ '-' :: (paddedChars 2 r.date.day ++
    'T' :: (paddedChars 2 r.hour ++ ':' :: (paddedChars 2 r.minute ++
      ':' :: (paddedChars 2 r.second ++ rest)))))

/-- In universal time the offset is written with zeros. -/
theorem ClockReading.tailChars_eq (r : ClockReading) :
    r.tailChars = r.charsBefore ['+', '0', '0', ':', '0', '0'] := rfl

/-- An instant is sent as the characters of its clock reading. -/
theorem Timestamp.chars_eq (t : Timestamp) :
    t.chars = yearChars t.reading.date.year ++ t.reading.tailChars := by
  simp only [Timestamp.chars, Timestamp.reading, ClockReading.tailChars, List.append_assoc,
    List.cons_append]

/-- Whether a clock reading shows a time of day to the second in universal time. -/
structure ClockReading.IsUniversal (r : ClockReading) : Prop where
  date : r.date.IsValid
  hour : r.hour ≤ 23
  minute : r.minute ≤ 59
  second : r.second ≤ 60
  nanos : r.nanos = 0
  offset : r.offset = 0

/-- The clock reading of an instant shows a time of day. -/
theorem Timestamp.isUniversal_reading (t : Timestamp) : t.reading.IsUniversal := by
  -- The seconds of a day are fewer than it has, and so are its hours, minutes and seconds.
  have small := t.isInstant.2.2
  have inDay : t.secondOfDay < 86400 := by
    rw [Timestamp.secondOfDay]
    omega
  refine ⟨CalendarDate.isValid_ofDays _, ?_, ?_, ?_, rfl, rfl⟩ <;> simp only [Timestamp.reading] <;>
    omega

/-- A month has at most 31 days. -/
theorem daysInMonth_le (year : Int) (month : Nat) : daysInMonth year month ≤ 31 := by
  -- There are two cases of the month, and February has two of its own.
  rw [daysInMonth]
  split
  · split <;> omega
  · split <;> omega

section

variable {r : ClockReading}

/-- A clock reading that shows a time of day is told by its date and that time. -/
theorem ClockReading.IsUniversal.eq (universal : r.IsUniversal) :
    { r with nanos := 0, offset := 0 } = r := by
  -- Universal time has neither nanoseconds nor an offset to be left out.
  obtain ⟨date, hour, minute, second, nanos, offset⟩ := r
  obtain ⟨-, -, -, -, rfl, rfl⟩ := universal
  rfl

/-- A clock reading of a year of four digits is taken with fixed width up to its offset, whatever
follows. -/
theorem takeStrict_front (universal : r.IsUniversal) (early : 0 ≤ r.date.year)
    (late : r.date.year ≤ 9999) (rest : List Char) :
    takeStrict (yearChars r.date.year ++ r.charsBefore rest) =
      (do
        let nanos ← takeFraction
        let offset ← takeStrictOffset
        takeEnd
        return { r with nanos := nanos, offset := offset } : DateReader ClockReading) rest := by
  obtain ⟨firstMonth, lastMonth, firstDay, lastDay⟩ := universal.date
  have inMonth := daysInMonth_le r.date.year r.date.month
  -- Each number fills its width.
  have pair : ∀ {least greatest n : Nat} (rest : List Char), least ≤ n → n ≤ greatest →
      greatest < 100 →
      inRange least greatest (takeDigits 2 (some 2)) (paddedChars 2 n ++ rest) = .ok (n, rest) :=
    fun rest above below small => inRange_ok
      (takeDigits_paddedChars _ _ (by decide) (by decide) (by omega) (by omega) rest) above below
  have year : takeDigits 4 (some 4) (paddedChars 4 r.date.year.toNat ++ r.charsBefore rest) =
      .ok (r.date.year.toNat, r.charsBefore rest) :=
    takeDigits_paddedChars _ _ (by decide) (by decide) (by omega) (by omega) _
  rw [yearChars, if_pos ⟨early, late⟩, takeStrict, DateReader.bind_ok year,
    ClockReading.charsBefore,
    DateReader.bind_ok (takeChar_ok _ _),
    DateReader.bind_ok (pair _ firstMonth lastMonth (by decide)),
    DateReader.bind_ok (takeChar_ok _ _),
    DateReader.bind_ok (pair _ firstDay (by omega) (by decide)),
    DateReader.bind_ok rfl,
    DateReader.bind_ok (pair _ (Nat.zero_le _) universal.hour (by decide)),
    DateReader.bind_ok (takeChar_ok _ _),
    DateReader.bind_ok (pair _ (Nat.zero_le _) universal.minute (by decide)),
    DateReader.bind_ok (takeChar_ok _ _),
    DateReader.bind_ok (pair _ (Nat.zero_le _) universal.second (by decide)),
    Int.toNat_of_nonneg early]

/-- A clock reading of a year of four digits is taken with fixed width. -/
theorem takeStrict_ok (universal : r.IsUniversal) (early : 0 ≤ r.date.year)
    (late : r.date.year ≤ 9999) :
    takeStrict (yearChars r.date.year ++ r.tailChars) = .ok (r, []) := by
  -- The front is taken for any tail, and behind it stand no fraction and the zero offset.
  rw [ClockReading.tailChars_eq, takeStrict_front universal early late,
    DateReader.bind_ok rfl,
    DateReader.bind_ok rfl,
    DateReader.bind_ok rfl]
  exact congrArg (fun reading => Except.ok (reading, [])) universal.eq

/-- A clock reading of a year with a sign is not taken with fixed width. -/
theorem takeStrict_error (outside : ¬(0 ≤ r.date.year ∧ r.date.year ≤ 9999)) :
    ∃ fault, takeStrict (yearChars r.date.year ++ r.tailChars) = .error fault := by
  -- Such a year begins with its sign, which is no digit.
  have sign : (if r.date.year < 0 then '-' else '+').isDigit = false := by
    split <;> rfl
  obtain ⟨fault, refused⟩ := takeDigits_error 4 (by decide) sign (some 4)
    (paddedChars 4 r.date.year.natAbs ++ r.tailChars)
  refine ⟨fault, ?_⟩
  rw [yearChars, if_neg outside, List.cons_append, takeStrict]
  show Except.bind _ _ = _
  rw [refused]
  rfl

/-- A year with a sign is taken by the reader of free width. -/
theorem takeYear_ok {year : Int} (outside : ¬(0 ≤ year ∧ year ≤ 9999)) (above : -262143 ≤ year)
    (below : year ≤ 262142) (rest : List Char) :
    takeYear (yearChars year ++ '-' :: rest) = .ok (year, '-' :: rest) := by
  -- The dash in front of the month ends the digits of the year.
  have digits := takeDigits_paddedChars_none 4 (n := year.natAbs) (by omega)
    (c := '-') rfl rest
  -- The year is kept in 32 bits, which no year of an instant leaves.
  have inRange : -(Nat.pow 2 31 : Int) ≤ year ∧ year < (Nat.pow 2 31 : Int) := by
    show -(2147483648 : Int) ≤ year ∧ year < 2147483648
    omega
  rw [yearChars, if_neg outside, List.cons_append, takeYear]
  -- The sign decides whether the number that is read is turned around.
  by_cases negative : year < 0
  · rw [if_pos negative, DateReader.bind_ok (takeBlanks_ok (by decide) _)]
    have sum : -(year.natAbs : Int) = year := by omega
    have signed : ((takeDigits 1 none (paddedChars 4 year.natAbs ++ '-' :: rest)).map
        fun d => (-(d.1 : Int), d.2)) = .ok (year, '-' :: rest) := by
      rw [digits, Except.map, sum]
    rw [DateReader.bind_ok signed, if_pos inRange]
    rfl
  · rw [if_neg negative, DateReader.bind_ok (takeBlanks_ok (by decide) _)]
    have sum : (year.natAbs : Int) = year := by omega
    have signed : ((takeDigits 1 none (paddedChars 4 year.natAbs ++ '-' :: rest)).map
        fun d => ((d.1 : Int), d.2)) = .ok (year, '-' :: rest) := by
      rw [digits, Except.map, sum]
    rw [DateReader.bind_ok signed, if_pos inRange]
    rfl

/-- A clock reading is taken with free width up to its offset, whatever follows, once its year is.
-/
theorem takeLooseReading_front (universal : r.IsUniversal) {year rest : List Char}
    (taken : takeYear (year ++ r.charsBefore rest) = .ok (r.date.year, r.charsBefore rest)) :
    takeLooseReading (year ++ r.charsBefore rest) =
      (do
        let offset ← takeLooseOffset
        takeEnd
        return { r with nanos := 0, offset := offset } : DateReader ClockReading) rest := by
  obtain ⟨firstMonth, lastMonth, firstDay, lastDay⟩ := universal.date
  have inMonth := daysInMonth_le r.date.year r.date.month
  -- The numbers behind the year are read one after the other, each in its range.
  have pair : ∀ {least greatest n : Nat} (rest : List Char), least ≤ n → n ≤ greatest →
      greatest < 100 →
      inRange least greatest takeLoose (paddedChars 2 n ++ rest) = .ok (n, rest) :=
    fun rest above below small => inRange_ok (takeLoose_paddedChars (by omega) rest) above below
  rw [takeLooseReading, DateReader.bind_ok taken, ClockReading.charsBefore,
    DateReader.bind_ok (takeChar_ok _ _),
    DateReader.bind_ok (pair _ firstMonth lastMonth (by decide)),
    DateReader.bind_ok (takeChar_ok _ _),
    DateReader.bind_ok (pair _ firstDay (by omega) (by decide)),
    DateReader.bind_ok (takeChar_ok _ _),
    DateReader.bind_ok (pair _ (Nat.zero_le _) universal.hour (by decide)),
    DateReader.bind_ok (takeChar_ok _ _),
    DateReader.bind_ok (pair _ (Nat.zero_le _) universal.minute (by decide)),
    DateReader.bind_ok (takeChar_ok _ _),
    DateReader.bind_ok (pair _ (Nat.zero_le _) universal.second (by decide))]

/-- A clock reading of a year with a sign is taken with free width. -/
theorem takeLooseReading_ok (universal : r.IsUniversal)
    (outside : ¬(0 ≤ r.date.year ∧ r.date.year ≤ 9999)) (above : -262143 ≤ r.date.year)
    (below : r.date.year ≤ 262142) :
    takeLooseReading (yearChars r.date.year ++ r.tailChars) = .ok (r, []) := by
  -- The front is taken for any tail once its year is, and behind it stands the zero offset.
  rw [ClockReading.tailChars_eq,
    takeLooseReading_front universal (takeYear_ok outside above below _),
    DateReader.bind_ok rfl,
    DateReader.bind_ok rfl]
  exact congrArg (fun reading => Except.ok (reading, [])) universal.eq

end

/-- A text that neither begins nor ends with a blank has none to remove. -/
theorem trimChars_of_dark {c d : Char} (first : isBlank c = false) (last : isBlank d = false)
    (inner : List Char) : trimChars (c :: (inner ++ [d])) = c :: (inner ++ [d]) := by
  -- Nothing is dropped at the front, and nothing at the back, which is the front of the reverse.
  have front : (c :: (inner ++ [d])).dropWhile isBlank = c :: (inner ++ [d]) := by
    rw [List.dropWhile_cons, first]
    simp
  have back : (c :: (inner ++ [d])).reverse = d :: (c :: inner).reverse := by simp
  rw [trimChars, front, back, List.dropWhile_cons, last]
  simp

namespace Timestamp

/-- Whether an instant is inside a leap second: a second more is counted in its nanoseconds, and its
second is the last one of a minute. -/
def IsLeap (t : Timestamp) : Prop := 1000000000 ≤ t.nanos ∧ t.seconds % 60 = 59

/-- Whether a second more is counted in the nanoseconds of an instant though no minute ends. A clock
shows the next second then. -/
def IsOverrun (t : Timestamp) : Prop := 1000000000 ≤ t.nanos ∧ t.seconds % 60 ≠ 59

instance (t : Timestamp) : Decidable t.IsLeap := inferInstanceAs (Decidable (_ ∧ _))

instance (t : Timestamp) : Decidable t.IsOverrun := inferInstanceAs (Decidable (_ ∧ _))

/-- What is left of an instant when it is sent: the second that is shown, the second of sixty
included. -/
def settled (t : Timestamp) : Timestamp where
  seconds := if t.IsOverrun then t.seconds + 1 else t.seconds
  nanos := if t.IsLeap then 1000000000 else 0
  isInstant := by
    obtain ⟨lower, upper, -⟩ := t.isInstant
    -- The last second of all ends a minute, so that no instant overruns it.
    refine ⟨?_, ?_, by split <;> omega⟩ <;> split
    · omega
    · exact lower
    · rename_i overrun
      have inside := overrun.2
      omega
    · exact upper

/-- The nanoseconds of an instant are within its second, within a leap second, or overrun it. -/
theorem nanos_cases (t : Timestamp) : t.nanos < 1000000000 ∨ t.IsLeap ∨ t.IsOverrun := by
  simp only [IsLeap, IsOverrun]
  omega

/-- Of an instant within its second the second is left. -/
theorem settled_of_lt {t : Timestamp} (within : t.nanos < 1000000000) :
    t.settled.seconds = t.seconds ∧ t.settled.nanos = 0 :=
  -- A leap second and an overrun one both have a second's nanoseconds and more.
  ⟨if_neg fun overrun => Nat.not_le.mpr within overrun.1,
    if_neg fun leap => Nat.not_le.mpr within leap.1⟩

/-- Of an instant inside a leap second the leap second is left. -/
theorem settled_of_isLeap {t : Timestamp} (leap : t.IsLeap) :
    t.settled.seconds = t.seconds ∧ t.settled.nanos = 1000000000 :=
  ⟨if_neg fun overrun => overrun.2 leap.2, if_pos leap⟩

/-- Of an instant that overruns its second the next second is left. -/
theorem settled_of_isOverrun {t : Timestamp} (overrun : t.IsOverrun) :
    t.settled.seconds = t.seconds + 1 ∧ t.settled.nanos = 0 :=
  ⟨if_pos overrun, if_neg fun leap => overrun.2 leap.2⟩

/-- A second of sixty is shown for the instants inside a leap second. -/
theorem second_reading (t : Timestamp) : t.reading.second = 60 ↔ t.IsLeap := by
  -- A count of nanoseconds is below two seconds, so that it adds one second at most.
  have small := t.isInstant.2.2
  simp only [reading, secondOfDay, IsLeap]
  omega

/-- What is left of an instant when it is sent shows the same on a clock. -/
theorem reading_settled (t : Timestamp) : t.settled.reading = t.reading := by
  have small := t.isInstant.2.2
  rcases t.nanos_cases with within | leap | overrun
  · obtain ⟨seconds, nanos⟩ := settled_of_lt within
    simp only [reading, date, secondOfDay, seconds, nanos, Nat.div_eq_of_lt within, Nat.zero_div]
  · obtain ⟨seconds, nanos⟩ := settled_of_isLeap leap
    have one : t.nanos / 1000000000 = 1 := by
      have long := leap.1
      omega
    have whole : 1000000000 / 1000000000 = 1 := rfl
    simp only [reading, date, secondOfDay, seconds, nanos, one, whole]
  · -- The second more that is shown stays within the minute, and within the day.
    obtain ⟨seconds, nanos⟩ := settled_of_isOverrun overrun
    obtain ⟨long, inside⟩ := overrun
    have sameDay : (t.seconds + 1) / 86400 = t.seconds / 86400 := by omega
    simp only [reading, date, secondOfDay, seconds, nanos, sameDay, ClockReading.mk.injEq,
      true_and, and_true]
    omega

/-- A clock shows an instant as many seconds after the start of 1970 as what is left of it when it
is sent. -/
theorem localSeconds_reading (t : Timestamp) : t.reading.localSeconds = t.settled.seconds := by
  have small := t.isInstant.2.2
  -- Whether a second of sixty is shown tells whether the instant is inside a leap second.
  have shown := t.second_reading
  have counted : t.reading.date.toDays = t.seconds / 86400 := CalendarDate.toDays_ofDays _
  simp only [ClockReading.localSeconds, counted]
  rcases t.nanos_cases with within | leap | overrun
  · rw [(settled_of_lt within).1, if_neg fun sixty => Nat.not_le.mpr within (shown.mp sixty).1]
    simp only [reading, secondOfDay]
    omega
  · -- The second of sixty belongs to the minute that it ends.
    rw [(settled_of_isLeap leap).1, if_pos (shown.mpr leap)]
    have ends := leap.2
    simp only [reading, secondOfDay]
    omega
  · rw [(settled_of_isOverrun overrun).1, if_neg fun sixty => overrun.2 (shown.mp sixty).2]
    have long := overrun.1
    simp only [reading, secondOfDay]
    omega

/-- A clock that shows what an instant is sent as shows what is left of the instant. -/
theorem toTimestamp_reading (t : Timestamp) : t.reading.toTimestamp = .ok t.settled := by
  have years := t.year_date
  -- The date is one of the calendar, in a year that dates may have.
  have inYears : ¬(¬t.reading.date.IsValid ∨ t.reading.date.year < -262143 ∨
      262142 < t.reading.date.year) := by
    rintro (invalid | before | after)
    · exact invalid t.isUniversal_reading.date
    · exact absurd before (by simp only [reading]; omega)
    · exact absurd after (by simp only [reading]; omega)
  -- Universal time is less than a day ahead or behind.
  have ahead : ¬(t.reading.offset ≤ -1440 ∨ 1440 ≤ t.reading.offset) := by
    simp only [reading]
    omega
  -- Of the fraction of the second, only the leap second is left.
  have nanos : (if t.reading.second = 60 then t.reading.nanos + 1000000000 else t.reading.nanos) =
      t.settled.nanos := by
    have zero : t.reading.nanos = 0 := rfl
    simp only [t.second_reading, settled, zero, Nat.zero_add]
  have seconds : t.reading.localSeconds - t.reading.offset * 60 = t.settled.seconds := by
    rw [localSeconds_reading]
    simp [reading]
  -- A leap second that is left still ends its minute.
  have ends : 1000000000 ≤ t.settled.nanos → t.settled.seconds % 60 = 59 := by
    rcases t.nanos_cases with within | leap | overrun
    · simp [settled_of_lt within]
    · simp [settled_of_isLeap leap, leap.2]
    · simp [settled_of_isOverrun overrun]
  simp only [ClockReading.toTimestamp, if_neg inYears, if_neg ahead, nanos, seconds]
  rw [ofUnix?, dif_pos ⟨t.settled.isInstant, ends⟩]

/-- The form in which an instant is sent neither begins nor ends with a blank. -/
theorem trimChars_chars (t : Timestamp) : trimChars t.chars = t.chars := by
  have shape : ∃ c inner, isBlank c = false ∧ t.chars = c :: (inner ++ ['0']) := by
    rw [chars_eq, ClockReading.tailChars]
    -- The year begins with a digit or a sign.
    have start : ∃ c others, isBlank c = false ∧ yearChars t.reading.date.year = c :: others := by
      rw [yearChars]
      split
      · have length := length_paddedChars_pos 4 t.reading.date.year.toNat
        have digits := fun c (member : c ∈ paddedChars 4 t.reading.date.year.toNat) =>
          isDigit_of_mem_paddedChars member
        cases padded : paddedChars 4 t.reading.date.year.toNat with
        | nil => simp [padded] at length
        | cons c others =>
          rw [padded] at digits
          exact ⟨c, others, isBlank_of_isDigit (digits c List.mem_cons_self), rfl⟩
      · refine ⟨_, _, ?_, rfl⟩
        split <;> decide
    -- The offset, which is always written with zeros, ends it.
    obtain ⟨c, others, dark, year⟩ := start
    refine ⟨c, others ++ '-' :: (paddedChars 2 t.reading.date.month ++ '-' ::
      (paddedChars 2 t.reading.date.day ++ 'T' :: (paddedChars 2 t.reading.hour ++ ':' ::
        (paddedChars 2 t.reading.minute ++ ':' :: (paddedChars 2 t.reading.second ++
          ['+', '0', '0', ':', '0']))))), dark, ?_⟩
    rw [year]
    simp
  obtain ⟨c, inner, dark, whole⟩ := shape
  rw [whole]
  exact trimChars_of_dark dark (by decide) inner

/-- What is left of an instant when it is sent is read back from the form in which it is sent. -/
theorem parse_format (t : Timestamp) : parse t.format = .ok t.settled := by
  have universal := t.isUniversal_reading
  have years := t.year_date
  rw [parse, format, String.toList_ofList, parseChars, trimChars_chars, chars_eq]
  -- Years of four digits are read with fixed width, and all others only after that was refused.
  by_cases inside : 0 ≤ t.reading.date.year ∧ t.reading.date.year ≤ 9999
  · simp only [instantBy, takeStrict_ok universal inside.1 inside.2, Bind.bind, Except.bind,
      toTimestamp_reading]
  · obtain ⟨fault, refused⟩ := takeStrict_error inside
    simp only [instantBy, refused, takeLooseReading_ok universal inside years.1 years.2, Bind.bind,
      Except.bind, toTimestamp_reading]

/-- What is left of an instant when it is sent is sent the same way. -/
theorem format_settled (t : Timestamp) : t.settled.format = t.format := by
  -- The form is made of what a clock shows.
  rw [format, format, chars_eq, chars_eq, t.reading_settled]

/-- The form in which an instant is sent is not empty. -/
theorem isEmpty_format (t : Timestamp) : t.format.isEmpty = false := by
  -- The text has a tail whatever the year is, and its first character is enough.
  have length : t.chars.length ≠ 0 := by
    rw [chars_eq, List.length_append, ClockReading.tailChars, List.length_cons]
    omega
  rw [format, ← Bool.not_eq_true, String.isEmpty_iff]
  intro empty
  exact length (by rw [← String.toList_ofList (l := t.chars), empty]; rfl)

/-- The text of an instant ends in a second of sixty exactly inside a leap second. -/
theorem suffix_format (t : Timestamp) :
    ":60+00:00".toList <:+ t.format.toList ↔ t.IsLeap := by
  have universal := t.isUniversal_reading
  have length : (paddedChars 2 t.reading.second).length = 2 :=
    length_paddedChars (by decide) (by have := universal.second; omega)
  rw [← second_reading]
  -- The second stands between the last colon but one and the offset.
  obtain ⟨front, whole⟩ : ∃ front, t.format.toList =
      front ++ ':' :: (paddedChars 2 t.reading.second ++ "+00:00".toList) := by
    rw [format, String.toList_ofList, chars_eq, ClockReading.tailChars]
    exact ⟨yearChars t.reading.date.year ++ '-' :: (paddedChars 2 t.reading.date.month ++ '-' ::
      (paddedChars 2 t.reading.date.day ++ 'T' :: (paddedChars 2 t.reading.hour ++ ':' ::
        paddedChars 2 t.reading.minute))), by simp⟩
  rw [whole]
  constructor
  · rintro ⟨earlier, same⟩
    obtain ⟨-, same⟩ := List.append_inj' same (by simp [length])
    rw [show ":60+00:00".toList = ':' :: (['6', '0'] ++ "+00:00".toList) from rfl,
      List.cons.injEq] at same
    -- The same digits are the same number.
    have digits := (List.append_inj' same.2 rfl).1
    rw [← digitsValue_paddedChars 2 t.reading.second, ← digits]
    rfl
  · intro sixty
    rw [sixty]
    exact ⟨front, rfl⟩

/-- Nanoseconds of less than two seconds behind any second of the years -262143 to 262142 are an
instant. Every instant is read back from the form in which it is sent, and what is read back is sent
in the same form. It is the same second, without its fraction, and inside a leap second, which is
the one that is shown as sixty, it is the same leap second. Only where a second more is counted in
the nanoseconds though no minute ends, it is the next second, which is the one that is shown. -/
theorem sent_read_back :
    (∀ seconds nanos, (∃ t : Timestamp, t.seconds = seconds ∧ t.nanos = nanos) ↔
      (-262143 ≤ (CalendarDate.ofDays (seconds / 86400)).year ∧
        (CalendarDate.ofDays (seconds / 86400)).year ≤ 262142) ∧ nanos < 2000000000) ∧
    ∀ t : Timestamp, (":60+00:00".toList <:+ t.format.toList ↔ t.IsLeap) ∧
      ∃ back, parse t.format = .ok back ∧ back.format = t.format ∧
        (¬ t.IsOverrun → back.seconds = t.seconds ∧
          back.nanos = if t.IsLeap then 1000000000 else 0) ∧
        (t.IsOverrun → back.seconds = t.seconds + 1 ∧ back.nanos = 0) := by
  refine ⟨fun seconds nanos => ?_, fun t => ⟨t.suffix_format, t.settled, parse_format t,
    format_settled t, fun within => ⟨if_neg within, rfl⟩, settled_of_isOverrun⟩⟩
  -- The bounds are those of the years, by which the domain of instants is known.
  rw [← isInstant_iff]
  constructor
  · rintro ⟨t, rfl, rfl⟩
    exact t.isInstant
  · intro instant
    exact ⟨⟨seconds, nanos, instant⟩, rfl, rfl⟩

/-- Four minutes before the end of a day, with more nanoseconds than its second has. -/
def overrunInstant : Timestamp := ⟨86164, 1333333333, by decide⟩

/-- An instant that overruns its second is sent and read back as the next second. -/
theorem overrunInstant_read_later : overrunInstant.format = "1970-01-01T23:56:05+00:00" ∧
    ∃ back, parse overrunInstant.format = .ok back ∧ back.seconds ≠ overrunInstant.seconds :=
  ⟨rfl, overrunInstant.settled, parse_format _, by decide⟩

end Timestamp

end ContentApi
