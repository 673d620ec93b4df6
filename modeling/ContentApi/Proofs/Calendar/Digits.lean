import ContentApi.Calendar.Reader
import Mathlib.Algebra.Group.Nat.Defs

/-! Numbers written in decimal are read back, with zeros in front or without. -/

namespace ContentApi

/-- The value of digits is the one that the library gives them. -/
theorem digitsValue_eq (digits : List Char) :
    digitsValue digits = Nat.ofDigitChars 10 digits 0 := by
  rw [digitsValue, Nat.ofDigitChars_eq_foldl]
  rfl

/-- The digits of a number have its value. -/
@[simp] theorem digitsValue_toDigits (n : Nat) : digitsValue (Nat.toDigits 10 n) = n := by
  rw [digitsValue_eq, Nat.ofDigitChars_ten_toDigits]

/-- Zeros in front do not change the value of digits. -/
@[simp] theorem digitsValue_paddedChars (width n : Nat) :
    digitsValue (paddedChars width n) = n := by
  -- The zeros add nothing to the value, and the digits are those of the number.
  rw [digitsValue_eq, paddedChars, Nat.ofDigitChars_append, Nat.ofDigitChars_replicate_zero,
    Nat.mul_zero, Nat.ofDigitChars_ten_toDigits]

/-- A padded number consists of digits. -/
theorem isDigit_of_mem_paddedChars {width n : Nat} {c : Char}
    (member : c ∈ paddedChars width n) : c.isDigit = true := by
  -- A character of the text is one of the zeros in front or one of the digits of the number.
  rcases List.mem_append.mp member with zero | digit
  · rw [List.eq_of_mem_replicate zero]
    rfl
  · exact Nat.isDigit_of_mem_toDigits (by decide) (by decide) digit

/-- A number that fits in a width fills it. -/
theorem length_paddedChars {width n : Nat} (wide : 0 < width) (fits : n < 10 ^ width) :
    (paddedChars width n).length = width := by
  -- The digits alone are no more than the width, and the zeros make up for what is missing.
  have short : (Nat.toDigits 10 n).length ≤ width :=
    (Nat.length_toDigits_le_iff (by decide) wide).mpr fits
  simp only [paddedChars, List.length_append, List.length_replicate]
  omega

/-- A padded number has a digit. -/
theorem length_paddedChars_pos (width n : Nat) : 0 < (paddedChars width n).length := by
  -- Even zero has a digit.
  have digits : 0 < (Nat.toDigits 10 n).length := Nat.length_toDigits_pos
  simp only [paddedChars, List.length_append]
  omega

/-- A number that fills the greatest width to be read is read, whatever follows. -/
theorem takeDigits_paddedChars (least width : Nat) {n : Nat} (wide : 0 < width)
    (enough : least ≤ width) (fits : n < 10 ^ width) (small : n < 2 ^ 63) (rest : List Char) :
    takeDigits least (some width) (paddedChars width n ++ rest) = .ok (n, rest) := by
  have length := length_paddedChars wide fits
  -- All that is written are digits, and the width ends them even where more digits follow.
  have taken : ((paddedChars width n ++ rest).takeWhile Char.isDigit).take width =
      paddedChars width n := by
    rw [List.takeWhile_append_of_pos fun c member => isDigit_of_mem_paddedChars member,
      List.take_append_of_le_length (by omega), List.take_of_length_le (by omega)]
  have long : ¬ (paddedChars width n ++ rest).length < least := by
    rw [List.length_append]
    omega
  have inRange : ¬ Nat.pow 2 63 ≤ n := Nat.not_le.mpr small
  -- None of the three refusals applies: enough stands there, enough of it is digits, and the value
  -- is in range.
  simp only [takeDigits, taken, digitsValue_paddedChars, if_neg long, if_neg inRange, length,
    Nat.not_lt.mpr enough, if_false]
  rw [List.drop_append_of_le_length (by omega), List.drop_of_length_le (by omega), List.nil_append]

/-- A number of any width is read where no digit follows. -/
theorem takeDigits_paddedChars_none (width : Nat) {n : Nat} (small : n < 2 ^ 63) {c : Char}
    (ended : c.isDigit = false) (rest : List Char) :
    takeDigits 1 none (paddedChars width n ++ c :: rest) = .ok (n, c :: rest) := by
  have length := length_paddedChars_pos width n
  -- Without a greatest width, it is what follows that ends the digits.
  have taken : (paddedChars width n ++ c :: rest).takeWhile Char.isDigit =
      paddedChars width n := by
    rw [List.takeWhile_append_of_pos fun c member => isDigit_of_mem_paddedChars member,
      List.takeWhile_cons, ended]
    simp
  have long : ¬ (paddedChars width n ++ c :: rest).length < 1 := by
    rw [List.length_append]
    omega
  have inRange : ¬ Nat.pow 2 63 ≤ n := Nat.not_le.mpr small
  -- One digit is enough here, and the number has one.
  simp only [takeDigits, taken, digitsValue_paddedChars, if_neg long, if_neg inRange,
    Nat.not_lt.mpr length, if_false]
  rw [List.drop_append_of_le_length (by omega), List.drop_of_length_le (by omega), List.nil_append]

/-- No number is read where no digit stands. -/
theorem takeDigits_error (least : Nat) (positive : 0 < least) {c : Char}
    (other : c.isDigit = false) (greatest : Option Nat) (rest : List Char) :
    ∃ fault, takeDigits least greatest (c :: rest) = .error fault := by
  have empty : (c :: rest).takeWhile Char.isDigit = [] := by
    rw [List.takeWhile_cons, other]
    simp
  unfold takeDigits
  simp only [empty, List.take_nil]
  -- A text that is too short is refused for that before its characters are looked at.
  by_cases short : (c :: rest).length < least
  · exact ⟨.tooShort, by rw [if_pos short]⟩
  · refine ⟨.invalid, ?_⟩
    rw [if_neg short]
    cases greatest <;> simp [positive]

end ContentApi
