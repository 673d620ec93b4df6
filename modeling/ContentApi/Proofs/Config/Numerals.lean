import ContentApi.Config.Number
import ContentApi.Proofs.Calendar.Digits
import Mathlib

/-! When a number in a setting is written out as it was read. -/

namespace ContentApi

/-- Whether a whole number is written as it would be written out: without a plus sign, and with a
zero in front only if it stands alone. -/
structure IsPlainWhole (cs : List Char) : Prop where
  noPlus : cs.head? ≠ some '+'
  noZero : (splitSign cs).2.head? = some '0' → cs = ['0']

section

variable {cs digits : List Char}

/-- A digit is that of its value, which is below ten. -/
theorem digitChar_of_isDigit {c : Char} (digit : c.isDigit = true) :
    c.toNat - 48 < 10 ∧ Nat.digitChar (c.toNat - 48) = c := by
  -- Digits lie between 48 and 57, so that nothing is cut off in the difference.
  have bounds : 48 ≤ c.toNat ∧ c.toNat ≤ 57 := by
    simpa [Char.isDigit, UInt32.le_iff_toNat_le] using digit
  refine ⟨by omega, Char.toNat_inj.mp ?_⟩
  rw [Nat.toNat_digitChar_of_lt_ten (by omega)]
  omega

/-- Digits that follow those of a number other than zero are written behind them. -/
theorem toDigits_foldl (plain : ∀ c ∈ digits, c.isDigit = true) {n : Nat} (positive : 0 < n) :
    Nat.toDigits 10 (digits.foldl (fun n c => 10 * n + (c.toNat - 48)) n) =
      Nat.toDigits 10 n ++ digits := by
  induction digits generalizing n with
  | nil => exact (List.append_nil _).symm
  | cons c rest ih =>
    -- With one more digit the number is still above zero, so the rest may follow it.
    obtain ⟨small, same⟩ := digitChar_of_isDigit (plain c List.mem_cons_self)
    have later := fun d member => plain d (List.mem_cons_of_mem _ member)
    rw [List.foldl_cons, ih later (by omega),
      ← Nat.toDigits_append_toDigits (by decide) positive small,
      Nat.toDigits_of_lt_base small, same,
      List.append_assoc]
    rfl

/-- Digits that do not start with a zero are those of their value. -/
theorem toDigits_digitsValue {c : Char} (plain : ∀ d ∈ c :: digits, d.isDigit = true)
    (noZero : c ≠ '0') : Nat.toDigits 10 (digitsValue (c :: digits)) = c :: digits := by
  obtain ⟨small, same⟩ := digitChar_of_isDigit (plain c List.mem_cons_self)
  -- The first digit is not zero, and so the value grows with each digit behind it.
  have positive : 0 < c.toNat - 48 := by
    refine Nat.pos_of_ne_zero fun zero => noZero ?_
    rw [← same, zero]
    rfl
  rw [digitsValue, List.foldl_cons, Nat.mul_zero, Nat.zero_add,
    toDigits_foldl (fun d member => plain d (List.mem_cons_of_mem _ member)) positive,
    Nat.toDigits_of_lt_base small, same]
  rfl

/-- The digits of a number other than zero do not start with a zero. -/
theorem head?_toDigits {n : Nat} (positive : 0 < n) : (Nat.toDigits 10 n).head? ≠ some '0' := by
  induction n using Nat.strongRecOn with
  | _ n ih =>
    by_cases small : n < 10
    · rw [Nat.toDigits_of_lt_base small, List.head?_singleton, ne_eq, Option.some.injEq]
      intro zero
      have value := Nat.toNat_digitChar_of_lt_ten small
      rw [zero] at value
      have digit : '0'.toNat = 48 := rfl
      omega
    · -- The digits of the tenth part stand in front of the last digit.
      have front : 0 < n / 10 := by omega
      rw [Nat.toDigits_of_base_le (by decide) (by omega),
        List.head?_append_of_ne_nil _ Nat.toDigits_ne_nil]
      exact ih (n / 10) (by omega) front

/-- Digits are those of their value exactly if they do not start with a zero, or are that. -/
theorem toDigits_digitsValue_iff (nonempty : digits ≠ [])
    (plain : ∀ c ∈ digits, c.isDigit = true) :
    Nat.toDigits 10 (digitsValue digits) = digits ↔
      (digits.head? = some '0' → digits = ['0']) := by
  refine ⟨fun same zero => ?_, fun noZero => ?_⟩
  · -- The usual digits of a number begin with a zero only if the number is zero.
    rw [← same] at zero ⊢
    by_cases positive : 0 < digitsValue digits
    · exact absurd zero (head?_toDigits positive)
    · rw [Nat.eq_zero_of_not_pos positive]
      rfl
  · obtain ⟨c, rest, rfl⟩ := List.exists_cons_of_ne_nil nonempty
    by_cases zero : c = '0'
    · rw [noZero (by rw [zero]; rfl)]
      rfl
    · exact toDigits_digitsValue plain zero

/-- Digits have a value if there are any, and nothing else. -/
theorem digitsOf?_eq_some_iff {n : Nat} : digitsOf? cs = some n ↔
    cs ≠ [] ∧ (∀ c ∈ cs, c.isDigit = true) ∧ digitsValue cs = n := by
  rw [digitsOf?]
  -- The reader tests for all digits at once, and no value tells where it failed.
  by_cases digits : cs ≠ [] ∧ cs.all Char.isDigit = true
  · rw [if_neg (by simpa using digits), Option.some.injEq]
    exact ⟨fun value => ⟨digits.1, List.all_eq_true.mp digits.2, value⟩, fun found => found.2.2⟩
  · refine iff_of_false ?_ fun found => digits ⟨found.1, List.all_eq_true.mpr found.2.1⟩
    rw [if_pos (by simpa [or_iff_not_imp_left] using digits)]
    exact nofun

/-- A text begins with a minus sign, or with a plus sign, or with neither. -/
theorem splitSign_cases (cs : List Char) :
    (∃ rest, cs = '-' :: rest ∧ splitSign cs = (true, rest)) ∨
    (∃ rest, cs = '+' :: rest ∧ splitSign cs = (false, rest)) ∨
    cs.head? ≠ some '+' ∧ splitSign cs = (false, cs) := by
  rw [splitSign.eq_def]
  -- The reader looks at the first character alone.
  split
  · exact .inl ⟨_, rfl, rfl⟩
  · exact .inr (.inl ⟨_, rfl, rfl⟩)
  · rename_i noPlus
    refine .inr (.inr ⟨fun plus => ?_, rfl⟩)
    obtain ⟨rest, same⟩ := List.head?_eq_some_iff.mp plus
    exact noPlus rest same

/-- A whole number is a sign, if any, and digits. -/
theorem wholeOf?_spec {n : Int} (read : wholeOf? cs = some n) :
    ((splitSign cs).2 ≠ [] ∧ ∀ c ∈ (splitSign cs).2, c.isDigit = true) ∧
      n = if (splitSign cs).1 then -(digitsValue (splitSign cs).2 : Int)
        else digitsValue (splitSign cs).2 := by
  -- The sign is split off first, and then nothing but digits may follow that fit in 64 bits.
  rw [wholeOf?] at read
  obtain ⟨magnitude, digits, read⟩ := Option.bind_eq_some_iff.mp read
  obtain ⟨nonempty, plain, rfl⟩ := digitsOf?_eq_some_iff.mp digits
  obtain ⟨-, value⟩ := Option.ite_none_right_eq_some.mp read
  exact ⟨⟨nonempty, plain⟩, (Option.some.inj value).symm⟩

/-- A number below zero is written as its magnitude behind a minus sign. -/
theorem toString_neg {n : Nat} (positive : 0 < n) :
    toString (-(n : Int)) = String.ofList ('-' :: Nat.toDigits 10 n) := by
  -- Above zero the number is a successor, for which there is a form with a minus sign.
  obtain ⟨m, rfl⟩ := Nat.exists_eq_succ_of_ne_zero (Nat.ne_of_gt positive)
  show "-" ++ String.ofList (Nat.toDigits 10 (m + 1)) = _
  rw [String.ofList_cons]
  rfl

/-- Digits behind a minus sign are written out as they were read if they do not start with a zero.
-/
theorem toString_minus_iff (nonempty : digits ≠ []) (plain : ∀ c ∈ digits, c.isDigit = true) :
    toString (-(digitsValue digits : Int)) = String.ofList ('-' :: digits) ↔
      digits.head? ≠ some '0' := by
  by_cases zero : digits.head? = some '0'
  · refine iff_of_false (fun same => ?_) (not_not_intro zero)
    by_cases positive : 0 < digitsValue digits
    · rw [toString_neg positive, String.ofList_inj, List.cons.injEq] at same
      rw [← same.2] at zero
      exact head?_toDigits positive zero
    · -- Minus zero is written without its sign.
      rw [Nat.eq_zero_of_not_pos positive] at same
      have chars := congrArg String.toList same
      rw [String.toList_ofList] at chars
      cases chars
  · refine iff_of_true ?_ zero
    obtain ⟨c, rest, rfl⟩ := List.exists_cons_of_ne_nil nonempty
    have noZero : c ≠ '0' := fun same => zero (by rw [same]; rfl)
    have written := toDigits_digitsValue plain noZero
    rw [toString_neg, written]
    refine Nat.pos_of_ne_zero fun none => ?_
    rw [none] at written
    cases written
    exact noZero rfl

/-- A whole number is written out as it was read exactly if it was written that way. -/
theorem toString_wholeOf?_iff {n : Int} (read : wholeOf? cs = some n) :
    toString n = String.ofList cs ↔ IsPlainWhole cs := by
  have isPlain : IsPlainWhole cs ↔ cs.head? ≠ some '+' ∧
      ((splitSign cs).2.head? = some '0' → cs = ['0']) :=
    ⟨fun written => ⟨written.noPlus, written.noZero⟩, fun ⟨noPlus, noZero⟩ => ⟨noPlus, noZero⟩⟩
  obtain ⟨⟨nonempty, plain⟩, value⟩ := wholeOf?_spec read
  rw [isPlain, value]
  obtain ⟨rest, rfl, sign⟩ | ⟨rest, rfl, sign⟩ | ⟨noPlus, sign⟩ := splitSign_cases cs
  · rw [sign] at nonempty plain ⊢
    rw [if_pos rfl]
    exact (toString_minus_iff nonempty plain).trans (by simp)
  · rw [sign] at ⊢
    rw [if_neg Bool.false_ne_true]
    -- No number is written out with a plus sign.
    refine iff_of_false (fun same => ?_) (by simp)
    have chars : Nat.toDigits 10 (digitsValue rest) = '+' :: rest := String.ofList_inj.mp same
    have digit : '+'.isDigit = true := Nat.isDigit_of_mem_toDigits (b := 10) (n := digitsValue rest)
      (by decide) (by decide) (chars ▸ List.mem_cons_self)
    cases digit
  · rw [sign] at nonempty plain ⊢
    rw [if_neg Bool.false_ne_true]
    have natural : toString ((digitsValue cs : Nat) : Int) =
        String.ofList (Nat.toDigits 10 (digitsValue cs)) := rfl
    rw [natural, String.ofList_inj, toDigits_digitsValue_iff nonempty plain]
    exact (and_iff_right noPlus).symm

end

/-- Whether a character may stand in a number. -/
def isNumeral (c : Char) : Bool :=
  c.isDigit || c == '+' || c == '-' || c == '.' || c == 'e' || c == 'E'

section

variable {cs : List Char}

/-- What stands behind the sign of a text may stand in a number if all of the text may. -/
theorem isNumeral_of_splitSign (numeral : ∀ c ∈ (splitSign cs).2, isNumeral c = true) :
    ∀ c ∈ cs, isNumeral c = true := by
  -- A sign may stand in a number as well, and without a sign the text is what is behind it.
  obtain ⟨rest, rfl, sign⟩ | ⟨rest, rfl, sign⟩ | ⟨-, sign⟩ := splitSign_cases cs
  · rw [sign] at numeral
    exact List.forall_mem_cons.mpr ⟨rfl, numeral⟩
  · rw [sign] at numeral
    exact List.forall_mem_cons.mpr ⟨rfl, numeral⟩
  · rwa [sign] at numeral

/-- A digit may stand in a number. -/
theorem isNumeral_of_isDigit {c : Char} (digit : c.isDigit = true) : isNumeral c = true := by
  rw [isNumeral, digit]
  rfl

/-- Nothing stands in a whole number but what may. -/
theorem isNumeral_of_wholeOf? {n : Int} (read : wholeOf? cs = some n) :
    ∀ c ∈ cs, isNumeral c = true :=
  isNumeral_of_splitSign fun c member => isNumeral_of_isDigit ((wholeOf?_spec read).1.2 c member)

/-- Nothing stands in a power but what may stand in a number. -/
theorem isNumeral_of_powerOf? {n : Int} (read : powerOf? cs = some n) :
    ∀ c ∈ cs, isNumeral c = true := by
  cases cs with
  | nil => exact nofun
  | cons c rest =>
    -- A power that is there begins with its letter, and behind a sign it has digits only.
    rw [powerOf?] at read
    split at read
    · rename_i letter
      obtain ⟨magnitude, known, -⟩ := Option.map_eq_some_iff.mp read
      obtain ⟨value, digits, -⟩ := Option.bind_eq_some_iff.mp known
      obtain ⟨-, plain, -⟩ := digitsOf?_eq_some_iff.mp digits
      refine List.forall_mem_cons.mpr ⟨?_, isNumeral_of_splitSign fun d member =>
        isNumeral_of_isDigit (plain d member)⟩
      rcases letter with rfl | rfl <;> rfl
    · cases read

/-- Nothing stands in a decimal number but what may. -/
theorem isNumeral_of_decimalOf? {negative : Bool} {x : RealSetting}
    (read : decimalOf? negative cs = some x) : ∀ c ∈ cs, isNumeral c = true := by
  rw [decimalOf?] at read
  obtain ⟨power, read, -⟩ := Option.bind_eq_some_iff.mp read
  have digits {cs : List Char} : ∀ c ∈ cs.takeWhile Char.isDigit, isNumeral c = true :=
    fun c member => isNumeral_of_isDigit (List.mem_takeWhile_imp member)
  have halves (cs : List Char) (rest : ∀ c ∈ cs.dropWhile Char.isDigit, isNumeral c = true) :
      ∀ c ∈ cs, isNumeral c = true := fun c member => by
    rw [← List.takeWhile_append_dropWhile (p := Char.isDigit) (l := cs)] at member
    exact (List.mem_append.mp member).elim (digits c) (rest c)
  refine halves cs ?_
  -- Behind a point more digits may stand before the power.
  split at read
  · rename_i rest point
    rw [point]
    exact List.forall_mem_cons.mpr ⟨rfl, halves rest (isNumeral_of_powerOf? read)⟩
  · exact isNumeral_of_powerOf? read

end

end ContentApi
