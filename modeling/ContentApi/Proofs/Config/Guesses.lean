import ContentApi.Config.Layers
import ContentApi.Proofs.Config.Numerals

/-! What becomes of the text of a variable that is taken for a flag or a number where it reads as
one, and written out as a text again. -/

namespace ContentApi

/-- The text that comes of a variable's text by way of the setting that it is taken for. -/
def guessedText (text : String) : String :=
  (Setting.ofVariable text).text?.getD text

/-- The words that are flags. -/
def IsFlagWord (word : List Char) : Prop :=
  word = "true".toList ∨ word = "false".toList

/-- Whether a text is written as that would be which it is taken for: a flag in lower case, a whole
number without a plus sign and zeros in front, any other number as it is rendered. -/
structure IsVerbatim (text : String) : Prop where
  flag : IsFlagWord (lowerChars text.toList) → IsFlagWord text.toList
  whole : ∀ n, wholeOf? text.toList = some n → IsPlainWhole text.toList
  real : wholeOf? text.toList = none → ∀ x, realOf? text.toList = some x → x.render = text

/-- What the text of a variable is taken for is no list and no table. -/
theorem text?_ofVariable (text : String) :
    (Setting.ofVariable text).text? = some (guessedText text) := by
  -- Each of the ways to read a variable ends in a setting with a text of its own.
  have some : ((Setting.ofVariable text).text?).isSome = true := by
    rw [Setting.ofVariable]
    repeat' split
    all_goals rfl
  rw [guessedText, ← Option.some_get some]
  rfl

section

variable {cs : List Char}

/-- A flag in any letter case is no number. -/
theorem not_number_of_isFlagWord (flag : IsFlagWord (lowerChars cs)) :
    wholeOf? cs = none ∧ realOf? cs = none := by
  -- It starts with a letter that no number has.
  obtain ⟨c, rest, rfl, letter⟩ : ∃ c rest, cs = c :: rest ∧
      (lowerChar c = 't' ∨ lowerChar c = 'f') := by
    cases cs with
    | nil => rcases flag with same | same <;> cases same
    | cons c rest =>
      refine ⟨c, rest, rfl, ?_⟩
      rcases flag with same | same
      · exact .inl (List.cons.inj same).1
      · exact .inr (List.cons.inj same).1
  have noNumeral : isNumeral c ≠ true := fun numeral => by
    simp only [isNumeral, Bool.or_eq_true, beq_iff_eq] at numeral
    rcases numeral with ((((digit | same) | same) | same) | same) | same
    · obtain ⟨small, same⟩ := digitChar_of_isDigit digit
      have all : ∀ n < 10, lowerChar (Nat.digitChar n) ≠ 't' ∧
          lowerChar (Nat.digitChar n) ≠ 'f' := by
        decide
      rw [← same] at letter
      exact letter.elim (all _ small).1 (all _ small).2
    all_goals
      subst same
      revert letter
      decide
  constructor
  · refine Option.eq_none_iff_forall_ne_some.mpr fun n read => noNumeral ?_
    exact isNumeral_of_wholeOf? read c List.mem_cons_self
  · refine Option.eq_none_iff_forall_ne_some.mpr fun x read => noNumeral ?_
    rw [realOf?] at read
    obtain ⟨others, same, -⟩ | ⟨others, same, -⟩ | ⟨-, sign⟩ := splitSign_cases (c :: rest)
    · exact absurd (by rw [(List.cons.inj same).1]; rfl) noNumeral
    · exact absurd (by rw [(List.cons.inj same).1]; rfl) noNumeral
    · rw [sign] at read
      rcases flag with same | same
      all_goals
        rw [same, if_neg (by decide), if_neg (by decide)] at read
        exact isNumeral_of_decimalOf? read c List.mem_cons_self

end

/-- What a text is taken for: a flag, a whole number, another number, or itself. -/
theorem guessedText_cases (text : String) :
    (lowerChars text.toList = "true".toList ∧ guessedText text = "true") ∨
    (lowerChars text.toList = "false".toList ∧ guessedText text = "false") ∨
    (¬ IsFlagWord (lowerChars text.toList) ∧
      ((∃ n, wholeOf? text.toList = some n ∧ guessedText text = toString n) ∨
      (wholeOf? text.toList = none ∧ ∃ x, realOf? text.toList = some x ∧
        guessedText text = x.render) ∨
      (wholeOf? text.toList = none ∧ realOf? text.toList = none ∧ guessedText text = text))) := by
  have guessed := text?_ofVariable text
  rw [Setting.ofVariable] at guessed
  -- The words for flags come first, then whole numbers and other numbers, and the text itself last.
  split at guessed
  · rename_i word
    exact .inl ⟨word, (Option.some.inj guessed).symm⟩
  · rename_i notTrue
    split at guessed
    · rename_i word
      exact .inr (.inl ⟨word, (Option.some.inj guessed).symm⟩)
    · rename_i notFalse
      refine .inr (.inr ⟨not_or.mpr ⟨notTrue, notFalse⟩, ?_⟩)
      split at guessed
      · rename_i n read
        exact .inl ⟨n, read, (Option.some.inj guessed).symm⟩
      · rename_i x none read
        exact .inr (.inl ⟨none, x, read, (Option.some.inj guessed).symm⟩)
      · rename_i none noReal
        exact .inr (.inr ⟨none, noReal, (Option.some.inj guessed).symm⟩)

section

variable {text : String}

/-- A flag comes out in lower case, so it must have been written so. -/
theorem guessedFlag_eq_iff {flag : String} (isFlag : flag = "true" ∨ flag = "false")
    (word : lowerChars text.toList = flag.toList) : flag = text ↔ IsVerbatim text := by
  have flagWord : IsFlagWord (lowerChars text.toList) :=
    isFlag.imp (fun same => word.trans (congrArg String.toList same)) fun same =>
      word.trans (congrArg String.toList same)
  obtain ⟨noWhole, noReal⟩ := not_number_of_isFlagWord flagWord
  constructor
  · rintro rfl
    refine ⟨fun _ => word ▸ flagWord, fun n read => ?_, fun _ x read => ?_⟩
    · rw [noWhole] at read
      cases read
    · rw [noReal] at read
      cases read
  · intro verbatim
    -- Both words are in lower case already, so the text is the flag that it is taken for.
    refine String.toList_inj.mp (word.symm.trans ?_)
    rcases verbatim.flag flagWord with same | same
    all_goals
      rw [same]
      decide

/-- The text of a variable comes out as it is exactly if it is written as what it is taken for. -/
theorem guessedText_eq_iff : guessedText text = text ↔ IsVerbatim text := by
  obtain ⟨word, guessed⟩ | ⟨word, guessed⟩ | ⟨noFlag, number⟩ := guessedText_cases text
  · exact guessed ▸ guessedFlag_eq_iff (.inl rfl) word
  · exact guessed ▸ guessedFlag_eq_iff (.inr rfl) word
  · obtain ⟨n, read, guessed⟩ | ⟨noWhole, x, read, guessed⟩ | ⟨noWhole, noReal, guessed⟩ := number
    · -- A whole number is printed from its value, so only its usual digits are printed as written.
      have written := toString_wholeOf?_iff read
      rw [String.ofList_toList] at written
      rw [guessed, written]
      refine ⟨fun plain => ⟨fun flag => absurd flag noFlag, fun _ _ => plain, fun none => ?_⟩,
        fun verbatim => verbatim.whole n read⟩
      rw [read] at none
      cases none
    · rw [guessed]
      -- A text that is another number is no whole one, and there is one way to read it.
      refine ⟨fun same => ⟨fun flag => absurd flag noFlag, fun n whole => ?_, fun _ y other => ?_⟩,
        fun verbatim => verbatim.real noWhole x read⟩
      · rw [noWhole] at whole
        cases whole
      · rw [read] at other
        cases other
        exact same
    · -- A text that is nothing else is kept, and all conditions are about what it is not.
      refine iff_of_true guessed ⟨fun flag => absurd flag noFlag, fun n whole => ?_,
        fun _ x real => ?_⟩
      · rw [noWhole] at whole
        cases whole
      · rw [noReal] at real
        cases real

end

end ContentApi
