import ContentApi.Proofs.Url.Percent
import ContentApi.Url.Basic

/-! The pairs of a form are read back from the query they are written in. -/

namespace ContentApi

section

variable {isBreak : Char → Bool}

/-- Every text has a piece, if only an empty one. -/
theorem exists_splitChars (cs : List Char) :
    ∃ piece pieces, splitChars isBreak cs = piece :: pieces := by
  -- A break begins a new piece in front of what is split already, which has one itself.
  cases cs with
  | nil => exact ⟨[], [], rfl⟩
  | cons c rest =>
    rw [splitChars]
    split
    · exact ⟨_, _, rfl⟩
    · split <;> exact ⟨_, _, rfl⟩

/-- A break between two texts divides their pieces. -/
theorem splitChars_append {b : Char} (breaks : isBreak b = true) (front rest : List Char) :
    splitChars isBreak (front ++ b :: rest) =
      splitChars isBreak front ++ splitChars isBreak rest := by
  induction front with
  | nil => simp [splitChars, breaks]
  | cons c front ih =>
    -- The next character is put in front of the first piece of the rest, unless it is a break.
    obtain ⟨piece, pieces, split⟩ := exists_splitChars front
    rw [List.cons_append, splitChars, splitChars, ih, split]
    by_cases here : isBreak c = true
    · rw [if_pos here, if_pos here]
      rfl
    · rw [if_neg here, if_neg here]
      rfl

/-- A text without a break is one piece. -/
theorem splitChars_of_unbroken {cs : List Char} (unbroken : ∀ c ∈ cs, isBreak c = false) :
    splitChars isBreak cs = [cs] := by
  -- The induction is on the characters, none of which begins another piece.
  induction cs with
  | nil => rfl
  | cons c rest ih =>
    have here := unbroken c List.mem_cons_self
    rw [splitChars, ih fun d member => unbroken d (List.mem_cons_of_mem _ member), here]
    rfl

/-- A text that is one piece has no break. -/
theorem unbroken_of_splitChars {cs piece : List Char}
    (whole : splitChars isBreak cs = [piece]) : ∀ c ∈ cs, isBreak c = false := by
  intro c inside
  refine Bool.eq_false_iff.mpr fun breaks => ?_
  obtain ⟨front, rest, rfl⟩ := List.append_of_mem inside
  -- What is in front of a break and what is behind it are a piece each.
  rw [splitChars_append breaks] at whole
  have pieces : ∀ cs : List Char, 1 ≤ (splitChars isBreak cs).length := fun cs => by
    obtain ⟨piece, rest, split⟩ : ∃ piece rest, splitChars isBreak cs = piece :: rest :=
      exists_splitChars cs
    simp [split]
  have two := congrArg List.length whole
  have before := pieces front
  have behind := pieces rest
  rw [List.length_append, List.length_singleton] at two
  omega

end

/-- Whether a character stands for itself in a form once plus signs are blanks again. -/
def keepsInDecodedForm (c : Char) : Bool :=
  c == ' ' || keepsInForm c

/-- Turning plus signs back into blanks leaves what is encoded byte by byte. -/
theorem map_formEncode (cs : List Char) :
    (formEncode cs).map (fun c => if c = '+' then ' ' else c) =
      percentEncode keepsInDecodedForm cs := by
  -- No plus sign stands for itself, and none is among percent signs and digits.
  have digits : ∀ bytes : Bytes, (bytes.flatMap percentByte).map
      (fun c => if c = '+' then ' ' else c) = bytes.flatMap percentByte := by
    intro bytes
    refine (List.map_congr_left fun c member => ?_).trans (List.map_id _)
    have plain : c ≠ '+' := by
      rintro rfl
      obtain ⟨b, -, written⟩ := List.mem_flatMap.mp member
      have bound : b.toNat < 256 := b.toNat_lt
      simp only [percentByte, List.mem_cons, List.not_mem_nil, or_false] at written
      rcases written with same | same | same
      · cases same
      · have alnum := isAsciiAlnum_upperHexDigit (n := b.toNat / 16) (by omega)
        rw [← same] at alnum
        cases alnum
      · have alnum := isAsciiAlnum_upperHexDigit (n := b.toNat % 16) (by omega)
        rw [← same] at alnum
        cases alnum
    rw [if_neg plain]
    rfl
  -- The two encodings agree on each character: on a blank, on what is kept, and on what is encoded.
  induction cs with
  | nil => rfl
  | cons c rest ih =>
    rw [formEncode, List.flatMap_cons, List.map_append, percentEncode, List.flatMap_cons]
    refine congr (congrArg _ ?_) ih
    by_cases blank : c = ' '
    · subst blank
      rfl
    · rw [if_neg blank]
      by_cases kept : keepsInForm c = true
      · have plain : c ≠ '+' := by
          rintro rfl
          cases kept
        simp [keepsInDecodedForm, kept, plain]
      · rw [if_neg kept, digits]
        simp [keepsInDecodedForm, blank, kept]

/-- A name or a value is read back from what a form makes of it. -/
theorem formDecode_formEncode (cs : List Char) : formDecode (formEncode cs) = String.ofList cs := by
  rw [formDecode, map_formEncode]
  exact textOfUtf8_percentDecode rfl cs

/-- What a form makes of a text holds no character that divides names from values or pairs. -/
theorem not_mem_formEncode {cs : List Char} {c : Char} (member : c ∈ formEncode cs) :
    c ≠ '=' ∧ c ≠ '&' := by
  obtain ⟨source, -, inside⟩ := List.mem_flatMap.mp member
  -- A blank is written as a plus sign, and all else as it would be in any other place.
  by_cases blank : source = ' '
  · rw [if_pos blank, List.mem_singleton] at inside
    subst inside
    decide
  · rw [if_neg blank] at inside
    have percent : c ∈ percentEncode keepsInForm [source] := by
      rw [percentEncode, List.flatMap_singleton]
      exact inside
    rcases mem_percentEncode percent with kept | same | alnum
    · constructor <;> rintro rfl <;> cases kept
    · subst same
      decide
    · constructor <;> rintro rfl <;> cases alnum

/-- A pair is read back from the piece of a query that it is written as. -/
theorem formPairOf_formPairChars (pair : String × String) :
    formPairOf (formPairChars pair) = pair := by
  -- The first equals sign is the one between the name and the value, as none is left in the name.
  have name : (formPairChars pair).takeWhile (· ≠ '=') = formEncode pair.1.toList := by
    rw [formPairChars, List.takeWhile_append_of_pos fun c member => by
      simpa using (not_mem_formEncode member).1]
    simp
  have value : (formPairChars pair).drop ((formEncode pair.1.toList).length + 1) =
      formEncode pair.2.toList := by
    rw [formPairChars, List.drop_append, List.drop_of_length_le (Nat.le_succ _)]
    simp
  rw [formPairOf, name, value, formDecode_formEncode, formDecode_formEncode, String.ofList_toList,
    String.ofList_toList]

/-- The pieces of a query that counts pairs as its own. -/
theorem formPairs_append (front rest : List Char) :
    formPairs (front ++ '&' :: rest) = formPairs front ++ formPairs rest := by
  -- The mark between them cuts the query, and each piece is read on its own.
  rw [formPairs, splitChars_append (by decide), List.filter_append, List.map_append]
  rfl

/-- One pair is read back from its query. -/
theorem formPairs_formPairChars (pair : String × String) :
    formPairs (formPairChars pair) = [pair] := by
  -- Neither the name, nor the sign behind it, nor the value divides pairs.
  have unbroken : ∀ c ∈ formPairChars pair, (c == '&') = false := by
    intro c member
    rcases List.mem_append.mp member with inName | afterName
    · simpa using (not_mem_formEncode inName).2
    · rcases List.mem_cons.mp afterName with same | inValue
      · subst same
        rfl
      · simpa using (not_mem_formEncode inValue).2
  -- An empty piece would be passed over, but the sign is always there.
  have nonempty : (formPairChars pair).isEmpty = false := by
    simp [formPairChars]
  rw [formPairs, splitChars_of_unbroken unbroken]
  simp [nonempty, formPairOf_formPairChars]

/-- The pairs of a form are read back from its query. -/
theorem formPairs_formChars : (pairs : List (String × String)) → formPairs (formChars pairs) = pairs
  | [] => rfl
  -- The recursion is on the pairs, between which stands the sign that divides them.
  | [pair] => formPairs_formPairChars pair
  | pair :: next :: rest => by
    rw [formChars, formPairs_append, formPairs_formPairChars, formPairs_formChars (next :: rest)]
    · rfl
    · exact List.cons_ne_nil _ _

/-- The pairs that an address has in its query. -/
def Url.queryPairs (url : Url) : List (String × String) :=
  formPairs (url.query.getD [])

/-- Added pairs are read back after those that were there. -/
theorem Url.queryPairs_addPairs (url : Url) (pairs : List (String × String)) :
    (url.addPairs pairs).queryPairs = url.queryPairs ++ pairs := by
  rw [queryPairs, addPairs, Option.getD_some, queryPairs]
  -- Added pairs are divided from a query only if it holds something.
  cases present : url.query.getD [] with
  | nil => exact formPairs_formChars pairs
  | cons c rest =>
    simp only [List.isEmpty_cons, Bool.false_eq_true, if_false]
    rw [List.append_assoc, List.singleton_append, formPairs_append, formPairs_formChars]

end ContentApi
