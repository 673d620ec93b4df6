import ContentApi.Calendar.Timestamp

/-! Counting days from a date and finding the date of a day are inverse to each other. -/

namespace ContentApi

/-- A day of a cycle of four hundred years. Only the last year of four has a day more, and only the
last century ends in such a year. -/
structure CycleDay where
  /-- The century of the cycle. -/
  century : Nat
  /-- The four years of the century. -/
  olympiad : Nat
  /-- The year of the four. -/
  turn : Nat
  /-- The day of the year, which begins in March. -/
  day : Nat
  bounds : century ≤ 3 ∧ olympiad ≤ 24 ∧ turn ≤ 3 ∧
    (day ≤ 364 ∨ day = 365 ∧ turn = 3 ∧ (olympiad = 24 → century = 3))

namespace CycleDay

/-- The days of the cycle before a day. -/
def toNat (c : CycleDay) : Nat :=
  36524 * c.century + 1461 * c.olympiad + 365 * c.turn + c.day

/-- The year of the cycle that a day falls in. -/
def year (c : CycleDay) : Nat :=
  100 * c.century + 4 * c.olympiad + c.turn

/-- The date of a day of a cycle. -/
def date (c : CycleDay) (cycle : Int) : CalendarDate :=
  let month := (5 * c.day + 2) / 153
  { year := if month < 10 then cycle * 400 + c.year else cycle * 400 + c.year + 1
    month := if month < 10 then month + 3 else month - 9
    day := c.day - (153 * month + 2) / 5 + 1 }

/-- Every number below the length of the cycle counts the days before one of its days. -/
theorem exists_toNat_eq {n : Nat} (inCycle : n < 146097) : ∃ c : CycleDay, c.toNat = n := by
  -- The last day of the cycle would begin a fifth century, and a last day of four a fifth year.
  obtain ⟨century, rest, centuries, inCentury, last, sum⟩ : ∃ century rest : Nat, century ≤ 3 ∧
      rest ≤ 36524 ∧ (rest = 36524 → century = 3) ∧ n = 36524 * century + rest :=
    ⟨min (n / 36524) 3, n - 36524 * min (n / 36524) 3, by omega, by omega, by omega, by omega⟩
  obtain ⟨olympiad, left, inFour, split⟩ : ∃ olympiad left : Nat, left ≤ 1460 ∧
      rest = 1461 * olympiad + left := ⟨rest / 1461, rest % 1461, by omega, by omega⟩
  -- The years of four are cut off at the fourth in the same way.
  obtain ⟨turn, day, turns, inYear, years⟩ : ∃ turn day : Nat, turn ≤ 3 ∧
      (day ≤ 364 ∨ day = 365 ∧ turn = 3) ∧ left = 365 * turn + day :=
    ⟨min (left / 365) 3, left - 365 * min (left / 365) 3, by omega, by omega, by omega⟩
  refine ⟨⟨century, olympiad, turn, day, by omega⟩, ?_⟩
  simp only [toNat]
  omega

variable (c : CycleDay)

/-- The year of the cycle is found from the number of days, less the leap days before it. -/
theorem year_eq :
    (c.toNat - c.toNat / 1460 + c.toNat / 36524 - c.toNat / 146096) / 365 = c.year := by
  obtain ⟨century, olympiad, turn, day, bounds⟩ := c
  simp only [toNat, year]
  -- The quotient by four short years counts a day too many near the end of four years.
  obtain ⟨extra, hextra⟩ :
      ∃ e, e = (24 * century + olympiad + 365 * turn + day) / 1460 := ⟨_, rfl⟩
  have small : extra ≤ day ∧ day - extra < 365 := by omega
  generalize sum : 36524 * century + 1461 * olympiad + 365 * turn + day = n
  have leaps : n / 1460 = 25 * century + olympiad + extra := by omega
  have centuries : n / 36524 = n / 146096 + century := by
    -- The last day of the cycle is the only one for which both quotients are one more.
    have within : 1461 * olympiad + 365 * turn + day < 36524 ∨ n = 146096 := by omega
    rcases within with inside | last <;> omega
  rw [leaps, centuries]
  generalize n / 146096 = cycles
  clear hextra leaps centuries bounds
  omega

/-- The days of the cycle before a day are those of the years before it and those of its year. -/
theorem toNat_eq : c.toNat = 365 * c.year + c.year / 4 - c.year / 100 + c.day := by
  obtain ⟨century, olympiad, turn, day, bounds⟩ := c
  simp only [toNat, year]
  -- Both quotients count the centuries, and the first one the fours of years that are left too.
  have fours : (100 * century + 4 * olympiad + turn) / 4 = 25 * century + olympiad := by omega
  have hundreds : (100 * century + 4 * olympiad + turn) / 100 = century := by omega
  omega

/-- A cycle has four hundred years. -/
theorem year_lt : c.year < 400 := by
  -- The years come of the days, of which a cycle has a fixed number.
  have bounds := c.bounds
  simp only [year]
  omega

/-- No year has more than 366 days. -/
theorem day_lt : c.day < 366 := by
  have bounds := c.bounds
  omega

/-- A year with 366 days from March on ends with the February of a leap year. -/
theorem isLeapYear_of_day (last : c.day = 365) (cycle : Int) :
    isLeapYear (cycle * 400 + c.year + 1) = true := by
  obtain ⟨century, olympiad, turn, day, bounds⟩ := c
  simp only at last
  -- The year is named, so that its remainders are about one variable.
  obtain ⟨ended, hended⟩ :
      ∃ y : Int, y = cycle * 400 + (100 * century + 4 * olympiad + turn : Nat) + 1 := ⟨_, rfl⟩
  have fours : ended % 4 = 0 := by omega
  rw [year, ← hended, isLeapYear]
  -- The last four years of a century end in a leap year only where the cycle ends too.
  by_cases ends : olympiad = 24
  · have cycles : ended % 400 = 0 := by omega
    simp [fours, cycles]
  · have inside : ended % 100 ≠ 0 := by omega
    simp [fours, inside]

/-- The months of a year from March on have the lengths that the calendar gives them. -/
theorem isValid_date (cycle : Int) : (c.date cycle).IsValid := by
  have inYear := c.day_lt
  have leap := c.isLeapYear_of_day
  generalize hday : c.day = day at inYear leap
  -- The months from March to January are never cut short, so their lengths repeat every five.
  obtain ⟨month, hmonth⟩ : ∃ m, m = (5 * day + 2) / 153 := ⟨_, rfl⟩
  simp only [CalendarDate.IsValid, date, hday, ← hmonth]
  refine ⟨by split <;> omega, by split <;> omega, by omega, ?_⟩
  by_cases early : month < 10
  · simp only [early, if_true, daysInMonth]
    have notSecond : ¬ month + 3 = 2 := by omega
    rw [if_neg notSecond]
    split <;> omega
  · simp only [early, if_false, daysInMonth]
    -- The year that began in March ends with February, whose last day is the only one that is not
    -- there every year.
    by_cases last : day = 365
    · rw [leap last]
      have second : month - 9 = 2 := by omega
      rw [if_pos second, if_pos rfl]
      omega
    · by_cases second : month - 9 = 2
      · rw [if_pos second]
        split <;> omega
      · rw [if_neg second]
        split <;> omega

/-- Counting the days up to the date of a day gives the days of the cycles before it. -/
theorem toDays_date (cycle : Int) : (c.date cycle).toDays = cycle * 146097 + c.toNat - 719468 := by
  have inYear := c.day_lt
  have years := c.year_lt
  rw [toNat_eq]
  obtain ⟨month, hmonth⟩ : ∃ m, m = (5 * c.day + 2) / 153 := ⟨_, rfl⟩
  simp only [CalendarDate.toDays, date, ← hmonth]
  -- From March to December the year is that of the cycle; January and February belong to the next.
  by_cases early : month < 10
  · have later : ¬ month + 3 ≤ 2 := by omega
    simp only [early, later, if_true, if_false]
    -- Counted from March, the month is the one that the day was found in.
    have back : (month + 3 + 9) % 12 = month := by omega
    rw [back]
    have cycles : (cycle * 400 + (c.year : Int)) / 400 = cycle := by omega
    have within : (cycle * 400 + (c.year : Int)) % 400 = c.year := by omega
    rw [cycles, within]
    omega
  · have first : month - 9 ≤ 2 := by omega
    simp only [early, first, if_true, if_false]
    have back : (month - 9 + 9) % 12 = month := by omega
    rw [back]
    -- The year before the one that is shown is the one of the cycle again.
    have cycles : (cycle * 400 + (c.year : Int) + 1 - 1) / 400 = cycle := by omega
    have within : (cycle * 400 + (c.year : Int) + 1 - 1) % 400 = c.year := by omega
    rw [cycles, within]
    omega

end CycleDay

namespace CalendarDate

/-- Each day falls in one cycle, and is a day of that. -/
theorem ofDays_eq (days : Int) : ∃ (c : CycleDay) (cycle : Int),
    days + 719468 = cycle * 146097 + c.toNat ∧ ofDays days = c.date cycle := by
  -- What is left of the days after whole cycles is less than a cycle.
  obtain ⟨c, same⟩ := CycleDay.exists_toNat_eq
    (n := ((days + 719468) % 146097).toNat) (by omega)
  refine ⟨c, (days + 719468) / 146097, by omega, ?_⟩
  -- The day of the year is what is left once the years before are counted.
  have ofYear : c.toNat - (365 * c.year + c.year / 4 - c.year / 100) = c.day := by
    rw [CycleDay.toNat_eq]
    omega
  simp only [ofDays, CycleDay.date, ← same, CycleDay.year_eq, ofYear]

/-- The date of a day is one of the calendar. -/
theorem isValid_ofDays (days : Int) : (ofDays days).IsValid := by
  -- A day is counted into its cycle, and the cycle shows dates of the calendar only.
  obtain ⟨c, cycle, -, same⟩ := ofDays_eq days
  rw [same]
  exact c.isValid_date cycle

/-- The date of a day is as many days from the first of January 1970 as the day. -/
theorem toDays_ofDays (days : Int) : (ofDays days).toDays = days := by
  -- The count is split into cycles and a day of one, and both are counted back.
  obtain ⟨c, cycle, counted, same⟩ := ofDays_eq days
  rw [same, CycleDay.toDays_date]
  omega

/-- The days that fall in the years of instants are those between the first and the last of them. -/
theorem year_ofDays_iff (days : Int) :
    (-262143 ≤ (ofDays days).year ∧ (ofDays days).year ≤ 262142) ↔
      -96465292 ≤ days ∧ days ≤ 95026236 := by
  obtain ⟨c, cycle, counted, same⟩ := ofDays_eq days
  rw [CycleDay.toNat_eq] at counted
  have years := c.year_lt
  have inYear := c.day_lt
  have leaps : c.year / 100 ≤ c.year / 4 := by omega
  rw [same]
  simp only [CycleDay.date]
  generalize c.year = year at *
  -- Only the first and the last cycle are cut off within, the one in its year 256 and the other in
  -- its year 142.
  rcases Int.lt_trichotomy cycle (-656) with before | rfl | inside
  · split <;> omega
  · rcases Nat.lt_trichotomy year 256 with early | rfl | late <;> split <;> omega
  · rcases Int.lt_trichotomy cycle 655 with between | rfl | after
    · split <;> omega
    · rcases Nat.lt_trichotomy year 142 with early | rfl | late <;> split <;> omega
    · split <;> omega

end CalendarDate

/-- Seconds and nanoseconds are an instant if the seconds fall in a year that instants may have and
the nanoseconds are less than two seconds. -/
theorem isInstant_iff (seconds : Int) (nanos : Nat) : IsInstant seconds nanos ↔
    (-262143 ≤ (CalendarDate.ofDays (seconds / 86400)).year ∧
      (CalendarDate.ofDays (seconds / 86400)).year ≤ 262142) ∧ nanos < 2000000000 := by
  rw [CalendarDate.year_ofDays_iff, IsInstant, ← and_assoc]
  -- The first and the last second are those of the first and the last day.
  refine and_congr_left fun _ => ?_
  omega

/-- The days of instants fall in the years that dates of instants may have. -/
theorem Timestamp.year_date (t : Timestamp) : -262143 ≤ t.date.year ∧ t.date.year ≤ 262142 :=
  ((isInstant_iff t.seconds t.nanos).mp t.isInstant).1

end ContentApi
