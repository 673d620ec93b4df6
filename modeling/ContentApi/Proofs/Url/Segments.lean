import ContentApi.Proofs.Url.Form
import ContentApi.Url.Resolve
import Mathlib

/-! Plain segments are added to an address as they are. -/

namespace ContentApi

/-- Whether a character may stand in a segment that is encoded already. -/
def standsInSegment (c : Char) : Bool :=
  keepsInSegment c || c == '%'

/-- Whether a character may stand in a path that is encoded already. -/
def standsInPath (c : Char) : Bool :=
  standsInSegment c || c == '/'

/-- Whether a segment is added to a path as it is. -/
structure IsPlainSegment (segment : List Char) : Prop where
  plain : ∀ c ∈ segment, standsInSegment c = true
  noStep : dotForm segment ≠ ['.'] ∧ dotForm segment ≠ ['.', '.']

section

variable {c : Char}

/-- What stands in a segment stands in a path. -/
theorem standsInPath_of_segment (plain : standsInSegment c = true) : standsInPath c = true := by
  rw [standsInPath, plain]
  rfl

/-- What may stand in a path is visible and in ASCII. -/
theorem standsInPath_bounds (plain : standsInPath c = true) : 0x20 < c.toNat ∧ c.toNat < 0x7F := by
  simp only [standsInPath, standsInSegment, keepsInSegment, isAsciiAlnum, Char.isAlpha,
    Char.isUpper,
    Char.isLower, Char.isDigit, Bool.or_eq_true, Bool.and_eq_true, decide_eq_true_eq, beq_iff_eq,
    ge_iff_le, UInt32.le_iff_toNat_le] at plain
  have upper : 'A'.val.toNat = 65 ∧ 'Z'.val.toNat = 90 := ⟨rfl, rfl⟩
  have lower : 'a'.val.toNat = 97 ∧ 'z'.val.toNat = 122 := ⟨rfl, rfl⟩
  have digit : '0'.val.toNat = 48 ∧ '9'.val.toNat = 57 := ⟨rfl, rfl⟩
  have value : c.toNat = c.val.toNat := rfl
  -- Letters and digits lie in spans; the other characters are told one by one.
  rcases plain with (((((((span | span) | span) | same) | same) | same) | same) | same) | same
  · omega
  · omega
  · omega
  all_goals
    subst same
    decide

/-- What may not stand in a path differs from what stands there. -/
theorem standsInPath_ne (plain : standsInPath c = true) {d : Char}
    (other : standsInPath d = false) :
    c ≠ d := by
  rintro rfl
  rw [other] at plain
  cases plain

/-- What stands in a segment does not end it. -/
theorem isSlash_of_standsInSegment (special : Bool) (plain : standsInSegment c = true) :
    isSlash special c = false := by
  -- Both slashes are encoded in a segment, the backslash even where the address would not need it.
  have notSlash : c ≠ '/' := by
    rintro rfl
    cases plain
  have notBackslash : c ≠ '\\' := standsInPath_ne (standsInPath_of_segment plain) rfl
  rw [isSlash, beq_eq_false_iff_ne.mpr notSlash, beq_eq_false_iff_ne.mpr notBackslash,
    Bool.and_false]
  rfl

/-- What may stand in a path is not encoded there. -/
theorem keepsInPath_of_standsInPath (plain : standsInPath c = true) : keepsInPath c = true := by
  -- The ten characters that a path encodes may not stand in it, and the others are visible.
  obtain ⟨low, high⟩ := standsInPath_bounds plain
  have ne (d : Char) (other : standsInPath d = false) : (c == d) = false :=
    beq_eq_false_iff_ne.mpr (standsInPath_ne plain other)
  simp only [keepsInPath, keepsInFragment, isPlainAscii]
  rw [ne ' ' rfl, ne '"' rfl, ne '<' rfl, ne '>' rfl, ne '\x60' rfl, ne '#' rfl, ne '?' rfl,
    ne '^' rfl, ne '\x7b' rfl, ne '\x7d' rfl]
  simp only [Bool.or_false, Bool.not_false, Bool.and_true, Bool.and_eq_true, decide_eq_true_eq]
  omega

end

/-- A plain text is encoded as it is. -/
theorem percentEncode_of_plain {segment : List Char}
    (plain : ∀ c ∈ segment, standsInSegment c = true) :
    percentEncode keepsInPath segment = segment :=
  -- A percent sign stands for itself in a path too, so nothing is encoded twice.
  percentEncode_of_kept fun c member =>
    keepsInPath_of_standsInPath (standsInPath_of_segment (plain c member))

/-- Plain segments are added behind those that are there. -/
theorem addSegments_of_plain {pieces : List (List Char)}
    (plain : ∀ piece ∈ pieces, IsPlainSegment piece) (reversed : List (List Char)) :
    addSegments false reversed pieces = pieces.reverse ++ reversed := by
  induction pieces generalizing reversed with
  | nil => rfl
  | cons piece rest ih =>
    -- A plain segment is no step, so none that was added before is taken away again.
    obtain ⟨chars, noPoint, noPoints⟩ := plain piece List.mem_cons_self
    have later := ih (fun other member => plain other (List.mem_cons_of_mem _ member))
      (piece :: reversed)
    rw [addSegments, if_neg noPoints, if_neg noPoint, percentEncode_of_plain chars]
    -- Only an address of files looks for drives.
    simp only [Bool.false_and, Bool.false_eq_true, if_false]
    rw [List.reverse_cons, List.append_assoc, List.singleton_append, ← later]
    split <;> rfl

/-- The pieces of a path are the segments that it was put together from. -/
theorem splitChars_segmentsChars {isBreak : Char → Bool} (slash : isBreak '/' = true)
    {first : List Char} {others : List (List Char)}
    (unbroken : ∀ piece ∈ first :: others, ∀ c ∈ piece, isBreak c = false) :
    splitChars isBreak (first ++ segmentsChars others) = first :: others := by
  -- The slash in front of each further segment is the only break behind the one before.
  induction others generalizing first with
  | nil =>
    rw [segmentsChars, List.flatMap_nil, List.append_nil]
    exact splitChars_of_unbroken (unbroken first List.mem_cons_self)
  | cons next others ih =>
    have later := ih fun piece member => unbroken piece (List.mem_cons_of_mem _ member)
    rw [segmentsChars, List.flatMap_cons, List.cons_append, splitChars_append slash,
      splitChars_of_unbroken (unbroken first List.mem_cons_self), ← segmentsChars, later]
    rfl

section

variable {cs : List Char}

/-- A path is read as it is, without anything taken from its ends or from within. -/
theorem cleanedUrlChars_of_path (plain : ∀ c ∈ cs, standsInPath c = true) :
    cleanedUrlChars (String.ofList cs) = cs := by
  -- No character of a path is a blank or a control.
  have kept (c : Char) (member : c ∈ cs) : ¬decide (c.toNat ≤ 0x20) = true := by
    have low := (standsInPath_bounds (plain c member)).1
    simpa using low
  have front : cs.dropWhile (fun c => decide (c.toNat ≤ 0x20)) = cs :=
    List.dropWhile_eq_self_iff.mpr fun _ => kept _ (List.getElem_mem _)
  have back : cs.reverse.dropWhile (fun c => decide (c.toNat ≤ 0x20)) = cs.reverse :=
    List.dropWhile_eq_self_iff.mpr fun _ => kept _ (List.mem_reverse.mp (List.getElem_mem _))
  rw [cleanedUrlChars, String.toList_ofList]
  simp only [front, back, List.reverse_reverse]
  refine List.filter_eq_self.mpr fun c member => ?_
  have ne (d : Char) (other : standsInPath d = false) : (c == d) = false :=
    beq_eq_false_iff_ne.mpr (standsInPath_ne (plain c member) other)
  rw [ne '\t' rfl, ne '\n' rfl, ne '\r' rfl]
  rfl

/-- No scheme stands in front of a path. -/
theorem splitScheme?_of_path (plain : ∀ c ∈ cs, standsInPath c = true) :
    splitScheme? cs = none := by
  -- A scheme would end with a colon.
  have noColon (taken : Nat) (rest : List Char) : cs.drop taken ≠ ':' :: rest := fun colon => by
    have member : ':' ∈ cs := List.mem_of_mem_drop (colon ▸ List.mem_cons_self)
    exact standsInPath_ne (plain ':' member) rfl rfl
  cases cs with
  | nil => rfl
  | cons c rest =>
    rw [splitScheme?]
    split
    · rename_i colon
      exact absurd colon (noColon _ _)
    · rfl

/-- What is in front of the first mark is taken. -/
theorem takeWhile_ne_append {d : Char} (first : d ∉ cs) (rest : List Char) :
    (cs ++ d :: rest).takeWhile (· ≠ d) = cs := by
  rw [List.takeWhile_append_of_pos fun c member => by
    simpa using ne_of_mem_of_not_mem member first]
  simp

/-- Without a mark all is taken. -/
theorem takeWhile_ne_self {d : Char} (absent : d ∉ cs) : cs.takeWhile (· ≠ d) = cs :=
  List.takeWhile_eq_self_iff.mpr fun c member => by
    simpa using ne_of_mem_of_not_mem member absent

/-- A text without the marks of a query and of a fragment is a path. -/
theorem UrlTail.of_unmarked (noFragment : '#' ∉ cs) (noQuery : '?' ∉ cs) :
    UrlTail.of cs = ⟨cs, none, none⟩ := by
  simp only [UrlTail.of, takeWhile_ne_self noFragment, takeWhile_ne_self noQuery, List.drop_length]

/-- A path has no query and no fragment behind it. -/
theorem UrlTail.of_path (plain : ∀ c ∈ cs, standsInPath c = true) :
    UrlTail.of cs = ⟨cs, none, none⟩ :=
  -- Neither the mark of a query nor that of a fragment may stand in a path.
  UrlTail.of_unmarked (fun member => standsInPath_ne (plain '#' member) rfl rfl)
    fun member => standsInPath_ne (plain '?' member) rfl rfl

end

section

variable {base : Url} {before : List (List Char)} {first : List Char} {others : List (List Char)}

/-- The characters of a path are those of its segments and slashes. -/
theorem standsInPath_of_mem_segments (plain : ∀ segment ∈ first :: others, IsPlainSegment segment) :
    ∀ c ∈ first ++ segmentsChars others, standsInPath c = true := by
  intro c member
  rcases List.mem_append.mp member with inFirst | inOthers
  · exact standsInPath_of_segment ((plain first List.mem_cons_self).plain c inFirst)
  · obtain ⟨segment, isOther, inside⟩ := List.mem_flatMap.mp inOthers
    -- Each further segment has its slash in front.
    rcases List.mem_cons.mp inside with slash | inSegment
    · subst slash
      rfl
    · exact standsInPath_of_segment
        ((plain segment (List.mem_cons_of_mem _ isOther)).plain c inSegment)

/-- The directory of an address that ends in a slash is its whole path. -/
theorem Url.directory_of_closed (closed : base.path = .segments (before ++ [[]]))
    (web : isFileScheme base.scheme = false) : base.directory = before := by
  rw [Url.directory, closed, web]
  simp only [List.reverse_append, List.reverse_cons, List.reverse_nil, List.nil_append,
    List.singleton_append]
  -- The path is turned round twice to look at its last segment, which is empty.
  cases reversed : before.reverse with
  | nil => rw [← List.reverse_reverse before, reversed]; rfl
  | cons last front => rw [← List.reverse_reverse before, reversed]; rfl

/-- Plain segments lead from an address to the one where they stand behind its directory. -/
theorem Url.follow_segments (web : isFileScheme base.scheme = false) (named : first ≠ [])
    (plain : ∀ segment ∈ first :: others, IsPlainSegment segment) :
    base.follow (first ++ segmentsChars others) =
      { base with
        path := .segments (base.directory ++ first :: others)
        query := none
        fragment := none } := by
  -- The first character of the path is in a segment, so that the path does not begin at the root.
  obtain ⟨c, rest, rfl⟩ := List.exists_cons_of_ne_nil named
  have inSegment : standsInSegment c = true :=
    (plain _ List.mem_cons_self).plain c List.mem_cons_self
  have pieces : splitChars (isSlash (isSpecialScheme base.scheme))
      (c :: rest ++ segmentsChars others) = (c :: rest) :: others :=
    splitChars_segmentsChars rfl fun piece member d inside =>
      isSlash_of_standsInSegment _ ((plain piece member).plain d inside)
  -- Plain pieces are added as they are, one behind the other.
  have segments : pathSegments base.scheme base.directory (c :: rest ++ segmentsChars others) =
      base.directory ++ (c :: rest) :: others := by
    rw [pathSegments, web, pieces, addSegments_of_plain plain]
    simp
  rw [follow, UrlTail.of_path (standsInPath_of_mem_segments plain)]
  simp only [List.cons_append, List.isEmpty_cons, Bool.false_eq_true, if_false,
    isSlash_of_standsInSegment true inSegment]
  rw [← List.cons_append, segments]
  rfl

/-- What does not start with a slash leads on from an address. -/
theorem Url.resolveRelative_of_segment {parts : List (List Char)}
    (path : base.path = .segments parts)
    (web : isFileScheme base.scheme = false) {c : Char} (noSlash : isSlash true c = false)
    {rest : List Char} : base.resolveRelative (c :: rest) = .ok (base.follow (c :: rest)) := by
  unfold resolveRelative
  simp only [path, web, Bool.false_eq_true, if_false]
  -- With two slashes a host would follow, and with one a path from the root.
  split
  · rename_i slashes
    cases slashes
    cases noSlash
  · rename_i same
    cases same
    rw [noSlash]
    rfl
  · rfl

/-- What a path that starts within a segment is joined to has no query and no fragment left. -/
theorem Url.bare_of_join {c : Char} {rest : List Char} (noSlash : isSlash true c = false)
    (plain : ∀ d ∈ c :: rest, standsInPath d = true) {url : Url}
    (joined : base.join (String.ofList (c :: rest)) = .ok url) :
    url.query = none ∧ url.fragment = none := by
  -- The path takes the place of the query, whatever the base is.
  have bare : (base.follow (c :: rest)).query = none ∧
      (base.follow (c :: rest)).fragment = none := by
    rw [follow, UrlTail.of_path plain]
    exact ⟨rfl, rfl⟩
  rw [join, resolve, cleanedUrlChars_of_path plain, splitScheme?_of_path plain] at joined
  have led : base.resolveRelative (c :: rest) = .ok url := joined
  unfold resolveRelative at led
  split at led
  · -- From a text without structure only a number sign would lead on.
    split at led
    · rename_i same
      cases same
      exact absurd (plain '#' List.mem_cons_self) (by decide)
    · cases led
  · by_cases file : isFileScheme base.scheme = true
    · rw [if_pos file] at led
      cases rest with
      | nil =>
        cases led
        exact bare
      | cons d rest =>
        simp only [fileUrl, noSlash, Bool.false_and, Bool.false_eq_true, if_false] at led
        cases led
        exact bare
    · rw [if_neg file] at led
      split at led
      · rename_i same
        cases same
        cases noSlash
      · rename_i same
        cases same
        rw [noSlash, Bool.false_and, if_neg Bool.false_ne_true] at led
        cases led
        exact bare
      · cases led
        exact bare

/-- Plain segments are joined to an address behind its directory. -/
theorem Url.join_segments {parts : List (List Char)} (path : base.path = .segments parts)
    (web : isFileScheme base.scheme = false) (named : first ≠ [])
    (plain : ∀ segment ∈ first :: others, IsPlainSegment segment) :
    base.join (String.ofList (first ++ segmentsChars others)) = .ok
      { base with
        path := .segments (base.directory ++ first :: others)
        query := none
        fragment := none } := by
  have chars := standsInPath_of_mem_segments plain
  have follow := follow_segments web named plain
  -- Nothing is cut from the text, and it has no scheme, so it is resolved against the base.
  rw [join, resolve, cleanedUrlChars_of_path chars, splitScheme?_of_path chars]
  obtain ⟨c, rest, rfl⟩ := List.exists_cons_of_ne_nil named
  have inSegment : standsInSegment c = true :=
    (plain _ List.mem_cons_self).plain c List.mem_cons_self
  have noSlash := isSlash_of_standsInSegment true inSegment
  exact (resolveRelative_of_segment path web noSlash).trans (congrArg _ follow)

end

end ContentApi
