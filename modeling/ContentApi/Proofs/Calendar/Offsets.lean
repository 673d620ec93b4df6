import ContentApi.Proofs.Calendar.Timestamps
import Mathlib.Data.List.Basic

/-! An instant is read from the time that clocks anywhere show, with the offset of the clock written
behind it. -/

namespace ContentApi

/-- The form in which an offset in minutes is written, with its hours and minutes divided. -/
def offsetChars (sign : Char) (divider : List Char) (offset : Int) : List Char :=
  sign :: (paddedChars 2 (offset.natAbs / 60) ++ (divider ++ paddedChars 2 (offset.natAbs % 60)))

/-- Whether a sign says on which side of universal time an offset is. Zero is on both. -/
def IsSignOf (sign : Char) (offset : Int) : Prop :=
  sign = '+' ∧ 0 ≤ offset ∨ sign = '-' ∧ offset ≤ 0

/-- What a clock shows at an instant that is so many minutes ahead of universal time. -/
def Timestamp.localReading (t : Timestamp) (offset : Int) : ClockReading :=
  let seconds := t.seconds + offset * 60
  let time := (seconds % 86400).toNat
  { date := CalendarDate.ofDays (seconds / 86400)
    hour := time / 3600
    minute := time / 60 % 60
    second := time % 60
    nanos := 0
    offset := offset }

/-- The form in which date and time of day of a clock are written. -/
def ClockReading.localChars (r : ClockReading) : List Char :=
  paddedChars 4 r.date.year.toNat ++ '-' :: paddedChars 2 r.date.month ++
    '-' :: paddedChars 2 r.date.day ++ 'T' :: paddedChars 2 r.hour ++
      ':' :: paddedChars 2 r.minute ++ ':' :: paddedChars 2 r.second

section

variable {offset : Int} {sign : Char}

/-- A number of two digits is two digits, the first of which counts tens. -/
theorem exists_pair {n : Nat} (fits : n < 100) : ∃ a b : Char, paddedChars 2 n = [a, b] ∧
    a.isDigit = true ∧ b.isDigit = true ∧ digitsValue [a] = n / 10 ∧ digitsValue [a, b] = n := by
  have length : (paddedChars 2 n).length = 2 := length_paddedChars (by decide) fits
  obtain ⟨a, b, shape⟩ := List.length_eq_two.mp length
  have digits := fun c (member : c ∈ paddedChars 2 n) => isDigit_of_mem_paddedChars member
  have value := digitsValue_paddedChars 2 n
  rw [shape] at digits value
  have first : a.isDigit = true := digits a (by simp)
  have second : b.isDigit = true := digits b (by simp)
  -- The second digit is less than ten, so it does not reach into the tens.
  have small : b.toNat - 48 < 10 := by
    have high : b.toNat ≤ 57 := (Char.isDigit_iff_toNat.mp second).2
    omega
  have tens : digitsValue [a] = n / 10 := by
    simp only [digitsValue, List.foldl_cons, List.foldl_nil] at value ⊢
    omega
  exact ⟨a, b, shape, first, second, tens, value⟩

/-- Two digits of an offset are taken, whatever follows. -/
theorem takePair_ok {limit n : Nat} (fits : n < 100) (below : n / 10 ≤ limit)
    (rest : List Char) : takePair limit (paddedChars 2 n ++ rest) = .ok (n, rest) := by
  -- A pair is decided by its value, so that the limit has to be compared with the first digit only.
  obtain ⟨a, b, shape, first, second, tens, value⟩ := exists_pair fits
  have inLimit : digitsValue [a] ≤ limit := by omega
  rw [shape]
  show takePair limit (a :: b :: rest) = _
  rw [takePair, first, second, if_pos (by decide), if_pos inLimit, value]

/-- The sign of an offset is taken. -/
theorem takeSign_ok (signed : IsSignOf sign offset) (rest : List Char) :
    ∃ negative, takeSign (sign :: rest) = .ok (negative, rest) ∧
      (if negative then -(offset.natAbs : Int) else offset.natAbs) = offset := by
  -- An offset of no minutes has a plus sign, so each sign decides on which side of zero it is.
  rcases signed with ⟨rfl, ahead⟩ | ⟨rfl, behind⟩
  · refine ⟨false, rfl, ?_⟩
    rw [if_neg (by decide)]
    omega
  · refine ⟨true, rfl, ?_⟩
    rw [if_pos rfl]
    omega

/-- An offset is taken if its divider is, whatever follows. -/
theorem takeOffset_ok (signed : IsSignOf sign offset) (behind : -1440 < offset)
    (ahead : offset < 1440) {divider : List Char} {reader : DateReader Unit} (rest : List Char)
    (divides : reader (divider ++ (paddedChars 2 (offset.natAbs % 60) ++ rest)) =
      .ok ((), paddedChars 2 (offset.natAbs % 60) ++ rest)) :
    takeOffset reader (offsetChars sign divider offset ++ rest) = .ok (offset, rest) := by
  have chars : offsetChars sign divider offset ++ rest =
      sign :: (paddedChars 2 (offset.natAbs / 60) ++
        (divider ++ (paddedChars 2 (offset.natAbs % 60) ++ rest))) := by
    simp [offsetChars]
  obtain ⟨negative, taken, value⟩ := takeSign_ok signed (paddedChars 2 (offset.natAbs / 60) ++
    (divider ++ (paddedChars 2 (offset.natAbs % 60) ++ rest)))
  -- Hours and minutes make up the offset again.
  have sum : 60 * (offset.natAbs / 60) + offset.natAbs % 60 = offset.natAbs :=
    Nat.div_add_mod _ _
  rw [chars, takeOffset, DateReader.bind_ok taken,
    DateReader.bind_ok (takePair_ok (by omega) (by omega) _),
    DateReader.bind_ok divides,
    DateReader.bind_ok (takePair_ok (by omega) (by omega) _), sum]
  exact congrArg (fun minutes => Except.ok (minutes, rest)) value

/-- An offset with a colon is taken by the strict form. -/
theorem takeStrictOffset_ok (signed : IsSignOf sign offset) (behind : -1440 < offset)
    (ahead : offset < 1440) (rest : List Char) :
    takeStrictOffset (offsetChars sign [':'] offset ++ rest) = .ok (offset, rest) := by
  have taken : takeOffset (takeChar ':') (offsetChars sign [':'] offset ++ rest) =
      .ok (offset, rest) :=
    takeOffset_ok signed behind ahead rest
      (takeChar_ok ':' (paddedChars 2 (offset.natAbs % 60) ++ rest))
  -- Neither sign is the letter that stands for universal time.
  rcases signed with ⟨rfl, -⟩ | ⟨rfl, -⟩ <;> exact taken

/-- An offset without a colon is not taken by the strict form. -/
theorem takeStrictOffset_error (signed : IsSignOf sign offset) (behind : -1440 < offset)
    (ahead : offset < 1440) : takeStrictOffset (offsetChars sign [] offset) = .error .invalid := by
  obtain ⟨a, b, minute, digit, -⟩ := exists_pair (n := offset.natAbs % 60) (by omega)
  -- Where the colon should be, there is the first digit of the minutes.
  have notColon : a ≠ ':' := by
    rintro rfl
    cases digit
  have refused : takeChar ':' (paddedChars 2 (offset.natAbs % 60)) = .error .invalid := by
    rw [minute, takeChar, if_neg notColon]
  obtain ⟨negative, taken, -⟩ := takeSign_ok signed
    (paddedChars 2 (offset.natAbs / 60) ++ paddedChars 2 (offset.natAbs % 60))
  have failed : takeOffset (takeChar ':') (offsetChars sign [] offset) = .error .invalid := by
    rw [offsetChars, List.nil_append, takeOffset, DateReader.bind_ok taken,
      DateReader.bind_ok (takePair_ok (by omega) (by omega) _)]
    show Except.bind _ _ = _
    rw [refused]
    rfl
  rcases signed with ⟨rfl, -⟩ | ⟨rfl, -⟩ <;> exact failed

/-- An offset without a colon is taken by the loose form. -/
theorem takeLooseOffset_ok (signed : IsSignOf sign offset) (behind : -1440 < offset)
    (ahead : offset < 1440) : takeLooseOffset (offsetChars sign [] offset) = .ok (offset, []) := by
  have dark : isBlank sign = false := by
    rcases signed with ⟨rfl, -⟩ | ⟨rfl, -⟩ <;> decide
  obtain ⟨a, b, minute, digit, -⟩ := exists_pair (n := offset.natAbs % 60) (by omega)
  -- No colon and no blank stands in front of the minutes, so none is passed over.
  have undivided : (paddedChars 2 (offset.natAbs % 60)).dropWhile
      (fun c => c == ':' || isBlank c) = paddedChars 2 (offset.natAbs % 60) := by
    have notColon : (a == ':') = false := beq_false_of_ne (by rintro rfl; cases digit)
    rw [minute, List.dropWhile_cons, notColon, isBlank_of_isDigit digit]
    rfl
  have taken : takeOffset (fun cs => .ok ((), cs.dropWhile fun c => c == ':' || isBlank c))
      (offsetChars sign [] offset ++ []) = .ok (offset, []) :=
    takeOffset_ok signed behind ahead []
      (by rw [List.nil_append, List.append_nil, undivided])
  rw [List.append_nil] at taken
  rw [takeLooseOffset, offsetChars, DateReader.bind_ok (takeBlanks_ok dark _)]
  exact taken

end

/-- A year of four digits is taken by the loose form too. -/
theorem takeYear_plain {year : Int} (early : 0 ≤ year) (late : year ≤ 9999) (rest : List Char) :
    takeYear (yearChars year ++ rest) = .ok (year, rest) := by
  have length := length_paddedChars_pos 4 year.toNat
  have digits := fun c (member : c ∈ paddedChars 4 year.toNat) => isDigit_of_mem_paddedChars member
  have taken := takeDigits_paddedChars 1 4 (n := year.toNat) (by decide) (by decide) (by omega)
    (by omega) rest
  have inRange : -(Nat.pow 2 31 : Int) ≤ year ∧ year < (Nat.pow 2 31 : Int) := by
    show -(2147483648 : Int) ≤ year ∧ year < 2147483648
    omega
  rw [yearChars, if_pos ⟨early, late⟩]
  cases shape : paddedChars 4 year.toNat with
  | nil => simp [shape] at length
  | cons c others =>
    rw [shape] at taken digits
    have digit : c.isDigit = true := digits c List.mem_cons_self
    -- The year begins with a digit, which is neither a blank nor a sign.
    have notMinus : c ≠ '-' := by
      rintro rfl
      cases digit
    have notPlus : c ≠ '+' := by
      rintro rfl
      cases digit
    rw [List.cons_append] at taken ⊢
    rw [takeYear, DateReader.bind_ok (takeBlanks_ok (isBlank_of_isDigit digit) _)]
    show Except.bind _ _ = _
    dsimp only
    split
    · rename_i same
      exact absurd (List.cons.inj same).1 notMinus
    · rename_i same
      exact absurd (List.cons.inj same).1 notPlus
    · rw [taken, Except.map, Except.bind, Int.toNat_of_nonneg early, if_pos inRange]
      rfl

/-- Blanks are passed over up to a number. -/
theorem dropWhile_isBlank_paddedChars {blanks : List Char} (blank : ∀ c ∈ blanks, isBlank c = true)
    {word : List Char} (digits : ∀ c ∈ word, c.isDigit = true) (notEmpty : word ≠ [])
    (rest : List Char) : (blanks ++ (word ++ rest)).dropWhile isBlank = word ++ rest := by
  -- All blanks go at once, and a digit is no blank, so that nothing of the number does.
  rw [List.dropWhile_append_of_pos blank]
  cases word with
  | nil => exact absurd rfl notEmpty
  | cons c others =>
    have dark : isBlank c = false := isBlank_of_isDigit (digits c List.mem_cons_self)
    rw [List.cons_append, List.dropWhile_cons, dark]
    rfl

/-- Blanks at both ends of a text that begins and ends with a number are removed, and no others. -/
theorem trimChars_surrounded {before after : List Char} (front : ∀ c ∈ before, isBlank c = true)
    (back : ∀ c ∈ after, isBlank c = true) (width last n m : Nat) (inner : List Char) :
    trimChars (before ++ (paddedChars width n ++ (inner ++ paddedChars last m)) ++ after) =
      paddedChars width n ++ (inner ++ paddedChars last m) := by
  have notEmpty (width n : Nat) : paddedChars width n ≠ [] :=
    List.length_pos_iff.mp (length_paddedChars_pos width n)
  have removed : (before ++ (paddedChars width n ++ (inner ++ paddedChars last m)) ++
      after).dropWhile isBlank = paddedChars width n ++ (inner ++ paddedChars last m ++ after) := by
    rw [List.append_assoc, List.append_assoc]
    exact dropWhile_isBlank_paddedChars front (fun c => isDigit_of_mem_paddedChars)
      (notEmpty width n) _
  -- In the reverse of what is left, the blanks at the end come first.
  have reversed : (paddedChars width n ++ (inner ++ paddedChars last m ++ after)).reverse =
      after.reverse ++ ((paddedChars last m).reverse ++
        (inner.reverse ++ (paddedChars width n).reverse)) := by simp
  have behind : ∀ c ∈ after.reverse, isBlank c = true :=
    fun c member => back c (List.mem_reverse.mp member)
  have digits : ∀ c ∈ (paddedChars last m).reverse, c.isDigit = true :=
    fun c member => isDigit_of_mem_paddedChars (List.mem_reverse.mp member)
  rw [trimChars, removed, reversed, dropWhile_isBlank_paddedChars behind digits
    (List.reverse_ne_nil_iff.mpr (notEmpty last m))]
  simp

namespace Timestamp

variable {t : Timestamp} {offset : Int} {sign : Char}

/-- A clock whose calendar shows a year of four digits shows, without its offset, what a clock in
universal time shows at some other instant. -/
theorem exists_universal (t : Timestamp) (early : 0 ≤ (t.localReading offset).date.year)
    (late : (t.localReading offset).date.year ≤ 9999) :
    ∃ u : Timestamp, u.seconds = t.seconds + offset * 60 ∧
      t.localReading offset = { u.reading with offset := offset } := by
  -- The date that is shown is the one that an instant in universal time has so much later.
  have shown : (t.localReading offset).date.year =
      (CalendarDate.ofDays ((t.seconds + offset * 60) / 86400)).year := rfl
  rw [shown] at early late
  -- Years of four digits are far within the years that there are instants of.
  have inYears : IsInstant (t.seconds + offset * 60) 0 :=
    (isInstant_iff _ _).mpr ⟨⟨by omega, by omega⟩, by omega⟩
  refine ⟨⟨_, 0, inYears⟩, rfl, ?_⟩
  simp [localReading, reading, date, secondOfDay]

/-- A clock shows a date of the calendar and a time of day, and how far behind the start of 1970 on
its own calendar it is. -/
theorem localReading_shows (t : Timestamp) (offset : Int) :
    let r := t.localReading offset
    r.date.IsValid ∧ r.hour ≤ 23 ∧ r.minute ≤ 59 ∧ r.second ≤ 59 ∧
      r.date.toDays * 86400 + (r.hour * 3600 + r.minute * 60 + r.second : Nat) =
        t.seconds + offset * 60 := by
  intro r
  -- The days are those that the date was made of, and the rest is less than a day.
  have counted : r.date.toDays = (t.seconds + offset * 60) / 86400 := CalendarDate.toDays_ofDays _
  have inDay : ((t.seconds + offset * 60) % 86400).toNat < 86400 := by omega
  refine ⟨CalendarDate.isValid_ofDays _, ?_, ?_, ?_, ?_⟩
  · show ((t.seconds + offset * 60) % 86400).toNat / 3600 ≤ 23
    omega
  · show ((t.seconds + offset * 60) % 86400).toNat / 60 % 60 ≤ 59
    omega
  · show ((t.seconds + offset * 60) % 86400).toNat % 60 ≤ 59
    omega
  · rw [counted]
    simp only [r, localReading]
    omega

/-- A clock shows the instant that its offset is counted from. -/
theorem toTimestamp_localReading (t : Timestamp) (whole : t.nanos = 0) (behind : -1440 < offset)
    (ahead : offset < 1440) (early : 0 ≤ (t.localReading offset).date.year)
    (late : (t.localReading offset).date.year ≤ 9999) :
    (t.localReading offset).toTimestamp = .ok t := by
  obtain ⟨valid, -, -, second, shown⟩ := t.localReading_shows offset
  have inYears : ¬(¬(t.localReading offset).date.IsValid ∨
      (t.localReading offset).date.year < -262143 ∨
      262142 < (t.localReading offset).date.year) := by
    rintro (invalid | before | after)
    · exact invalid valid
    · omega
    · omega
  have inDay : ¬((t.localReading offset).offset ≤ -1440 ∨
      1440 ≤ (t.localReading offset).offset) := by
    show ¬(offset ≤ -1440 ∨ 1440 ≤ offset)
    omega
  -- No second of sixty is shown, as the instant is not inside a leap second.
  have notSixty : (t.localReading offset).second ≠ 60 := by omega
  have seconds : (t.localReading offset).localSeconds - offset * 60 = t.seconds := by
    rw [ClockReading.localSeconds, if_neg notSixty, shown]
    omega
  have instant : IsInstant t.seconds 0 := whole ▸ t.isInstant
  have same : (⟨t.seconds, 0, instant⟩ : Timestamp) = t := by
    obtain ⟨seconds, nanos, inside⟩ := t
    cases whole
    rfl
  have made : ofUnix? t.seconds 0 = some t := by
    rw [ofUnix?, dif_pos ⟨instant, by omega⟩, same]
  have shift : (t.localReading offset).offset = offset := rfl
  have nanos : (t.localReading offset).nanos = 0 := rfl
  rw [ClockReading.toTimestamp, if_neg inYears, if_neg inDay]
  simp only [if_neg notSixty, shift, seconds, nanos, made]

/-- Date and time of day of a clock are written in the form in which instants are sent, up to the
offset. -/
theorem localChars_append {r : ClockReading} (early : 0 ≤ r.date.year) (late : r.date.year ≤ 9999)
    (rest : List Char) : r.localChars ++ rest = yearChars r.date.year ++ r.charsBefore rest := by
  rw [yearChars, if_pos ⟨early, late⟩]
  simp [ClockReading.localChars, ClockReading.charsBefore]

section

variable (signed : IsSignOf sign offset) (behind : -1440 < offset) (ahead : offset < 1440)
  (early : 0 ≤ (t.localReading offset).date.year)
  (late : (t.localReading offset).date.year ≤ 9999)

include signed behind ahead early late

/-- With a colon in its offset, what a clock shows is taken by the strict form. -/
theorem takeStrict_localReading :
    takeStrict ((t.localReading offset).localChars ++ offsetChars sign [':'] offset) =
      .ok (t.localReading offset, []) := by
  -- What is shown is what a clock in universal time shows later, which is known to be taken.
  obtain ⟨u, -, shown⟩ := t.exists_universal early late
  -- A sign stands behind the seconds, and so there is no fraction.
  have fraction : takeFraction (offsetChars sign [':'] offset) =
      .ok (0, offsetChars sign [':'] offset) := by
    rcases signed with ⟨rfl, -⟩ | ⟨rfl, -⟩ <;> rfl
  have taken := takeStrictOffset_ok signed behind ahead []
  rw [List.append_nil] at taken
  rw [localChars_append early late]
  rw [shown] at early late ⊢
  show takeStrict (yearChars u.reading.date.year ++ u.reading.charsBefore _) = _
  rw [takeStrict_front u.isUniversal_reading early late, DateReader.bind_ok fraction,
    DateReader.bind_ok taken, DateReader.bind_ok rfl]
  rfl

/-- Without a colon in its offset, what a clock shows is taken by the loose form alone. -/
theorem takeLooseReading_localReading :
    (∃ fault, takeStrict ((t.localReading offset).localChars ++ offsetChars sign [] offset) =
      .error fault) ∧
    takeLooseReading ((t.localReading offset).localChars ++ offsetChars sign [] offset) =
      .ok (t.localReading offset, []) := by
  -- Both forms take the date and the time of day alike, and differ in the offset only.
  obtain ⟨u, -, shown⟩ := t.exists_universal early late
  have fraction : takeFraction (offsetChars sign [] offset) =
      .ok (0, offsetChars sign [] offset) := by
    rcases signed with ⟨rfl, -⟩ | ⟨rfl, -⟩ <;> rfl
  rw [localChars_append early late]
  rw [shown] at early late ⊢
  show (∃ fault, takeStrict (yearChars u.reading.date.year ++ u.reading.charsBefore _) = _) ∧
    takeLooseReading (yearChars u.reading.date.year ++ u.reading.charsBefore _) = _
  constructor
  · -- The strict form wants a colon between the hours and the minutes of the offset.
    refine ⟨.invalid, ?_⟩
    rw [takeStrict_front u.isUniversal_reading early late, DateReader.bind_ok fraction]
    show Except.bind _ _ = _
    rw [takeStrictOffset_error signed behind ahead]
    rfl
  · rw [takeLooseReading_front u.isUniversal_reading (takeYear_plain early late _),
      DateReader.bind_ok (takeLooseOffset_ok signed behind ahead), DateReader.bind_ok rfl]
    rfl

/-- What a clock shows is read as the instant at which it shows that, with a colon in its offset and
without. -/
theorem parseChars_localReading (whole : t.nanos = 0) {divider : List Char}
    (divides : divider = [':'] ∨ divider = []) {cs : List Char}
    (shows : trimChars cs = (t.localReading offset).localChars ++ offsetChars sign divider offset) :
    parseChars cs = .ok t := by
  have instant := t.toTimestamp_localReading whole behind ahead early late
  rw [parseChars, shows]
  rcases divides with rfl | rfl
  · have taken := takeStrict_localReading signed behind ahead early late
    simp only [instantBy, taken, Bind.bind, Except.bind, instant]
  · -- The strict form takes all but the offset, so the loose one has to take the whole again.
    obtain ⟨⟨fault, refused⟩, taken⟩ :=
      takeLooseReading_localReading signed behind ahead early late
    simp only [instantBy, refused, taken, Bind.bind, Except.bind, instant]

end

/-- What a clock shows is the same without the blanks around it. -/
theorem trimChars_localReading (t : Timestamp) (offset : Int) (sign : Char) (divider : List Char)
    {before after : List Char} (front : ∀ c ∈ before, isBlank c = true)
    (back : ∀ c ∈ after, isBlank c = true) :
    trimChars (before ++ ((t.localReading offset).localChars ++
      offsetChars sign divider offset) ++ after) =
      (t.localReading offset).localChars ++ offsetChars sign divider offset := by
  -- The year comes first, and the minutes of the offset come last.
  obtain ⟨inner, shape⟩ : ∃ inner, (t.localReading offset).localChars ++
      offsetChars sign divider offset = paddedChars 4 (t.localReading offset).date.year.toNat ++
        (inner ++ paddedChars 2 (offset.natAbs % 60)) := by
    generalize t.localReading offset = r
    refine ⟨'-' :: paddedChars 2 r.date.month ++ '-' :: paddedChars 2 r.date.day ++
      'T' :: paddedChars 2 r.hour ++ ':' :: paddedChars 2 r.minute ++
        ':' :: paddedChars 2 r.second ++ sign :: paddedChars 2 (offset.natAbs / 60) ++ divider, ?_⟩
    simp [ClockReading.localChars, offsetChars]
  rw [shape]
  exact trimChars_surrounded front back _ _ _ _ _

/-- An instant is read from what any clock shows at it. Written with the offset of the clock, with a
colon or without, and with any blanks around it, the date and the time of day that the clock shows
are the instant again, if its calendar is in a year of four digits. -/
theorem parse_localReading (t : Timestamp) (whole : t.nanos = 0) {offset : Int}
    (behind : -1440 < offset) (ahead : offset < 1440)
    (early : 0 ≤ (t.localReading offset).date.year)
    (late : (t.localReading offset).date.year ≤ 9999) {sign : Char}
    (signed : IsSignOf sign offset) {divider : List Char} (divides : divider = [':'] ∨ divider = [])
    {before after : List Char} (front : ∀ c ∈ before, isBlank c = true)
    (back : ∀ c ∈ after, isBlank c = true) :
    let r := t.localReading offset
    (r.date.IsValid ∧ r.hour ≤ 23 ∧ r.minute ≤ 59 ∧ r.second ≤ 59 ∧
      r.date.toDays * 86400 + (r.hour * 3600 + r.minute * 60 + r.second : Nat) =
        t.seconds + offset * 60) ∧
    parse (String.ofList (before ++ (r.localChars ++ offsetChars sign divider offset) ++ after)) =
      .ok t := by
  intro r
  refine ⟨t.localReading_shows offset, ?_⟩
  rw [parse, String.toList_ofList]
  -- Blanks at the ends are gone before either form is tried.
  exact parseChars_localReading signed behind ahead early late whole divides
    (t.trimChars_localReading offset sign divider front back)

/-- The first half minute of the year 10000. -/
def farInstant : Timestamp := ⟨253402300830, 0, by decide⟩

/-- A clock that is a minute behind still shows the last minute of the year 9999, and what it shows
is read as an instant of the next year. -/
theorem parse_farInstant :
    farInstant.nanos = 0 ∧ (farInstant.localReading (-1)).date = ⟨9999, 12, 31⟩ ∧
      IsSignOf '-' (-1) ∧ (∀ c ∈ ['\u00a0', '\n'], isBlank c = true) ∧
      parse "\u00a09999-12-31T23:59:30-0001\n" = .ok farInstant := by
  -- The date and the text are values of the clock, and are computed.
  have date : (farInstant.localReading (-1)).date = ⟨9999, 12, 31⟩ := by decide +kernel
  have signed : IsSignOf '-' (-1) := .inr ⟨rfl, by decide⟩
  have text : String.ofList (['\u00a0'] ++ ((farInstant.localReading (-1)).localChars ++
      offsetChars '-' [] (-1)) ++ ['\n']) = "\u00a09999-12-31T23:59:30-0001\n" := by
    decide +kernel
  have read : parse (String.ofList (['\u00a0'] ++ ((farInstant.localReading (-1)).localChars ++
      offsetChars '-' [] (-1)) ++ ['\n'])) = .ok farInstant :=
    (farInstant.parse_localReading rfl (by decide) (by decide) (by simp [date]) (by simp [date])
      signed (.inr rfl) (List.all_eq_true.mp rfl) (List.all_eq_true.mp rfl)).2
  rw [text] at read
  exact ⟨rfl, date, signed, List.all_eq_true.mp rfl, read⟩

end Timestamp

end ContentApi
