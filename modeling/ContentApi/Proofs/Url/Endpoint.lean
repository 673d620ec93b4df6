import ContentApi.Proofs.Results
import ContentApi.Proofs.Url.Segments
import ContentApi.Url.Endpoint

/-! An endpoint takes each of its arguments into a segment of its own. -/

namespace ContentApi

/-- Whether a segment stands for a text: its decoded bytes are those of the text, and nothing in it
divides segments or ends a path. -/
structure Encodes (segment : List Char) (text : String) : Prop where
  plain : ∀ c ∈ segment, standsInSegment c = true
  decoded : percentDecode segment = utf8Bytes text

/-- The place of an argument in a template. -/
def mark : List Char := ['%', 's']

/-- Whether segments are those of a template, with one that stands for its argument in the place of
each mark. -/
inductive Fills : List (List Char) → List String → List (List Char) → Prop where
  | done : Fills [] [] []
  | filled {pieces segments : List (List Char)} {arguments : List String} {segment : List Char}
      {argument : String} (encodes : Encodes segment argument)
      (rest : Fills pieces arguments segments) :
      Fills (mark :: pieces) (argument :: arguments) (segment :: segments)
  | kept {pieces segments : List (List Char)} {arguments : List String} {piece : List Char}
      (name : piece ≠ mark) (rest : Fills pieces arguments segments) :
      Fills (piece :: pieces) arguments (piece :: segments)

/-- A segment stands for one text only. -/
theorem Encodes.unique {segment : List Char} {text other : String} (encodes : Encodes segment text)
    (encodesOther : Encodes segment other) : text = other := by
  -- Both texts are decoded from the same bytes.
  have same := encodes.decoded.symm.trans encodesOther.decoded
  rw [← textOfUtf8_utf8Bytes text, same, textOfUtf8_utf8Bytes]

/-- A template that is filled with the same segments is filled with the same arguments. -/
theorem Fills.unique {pieces segments : List (List Char)} {arguments others : List String}
    (fills : Fills pieces arguments segments) (fillsOthers : Fills pieces others segments) :
    arguments = others := by
  -- The segments decide by their places which piece they belong to, so both fillings take the same
  -- rule at each step.
  induction fills generalizing others with
  | done =>
    cases fillsOthers
    rfl
  | filled encodes _ ih =>
    cases fillsOthers with
    | filled encodesOther rest => rw [encodes.unique encodesOther, ih rest]
    | kept name => exact absurd rfl name
  | kept name _ ih =>
    cases fillsOthers with
    | filled => exact absurd rfl name
    | kept _ rest => exact ih rest

/-- What is encoded for a segment stands for its argument. -/
theorem encodes_encodeSegment (argument : String) : Encodes (encodeSegment argument) argument where
  plain c member := by
    -- Digits are letters or digits of ASCII, and the percent sign may stand in a segment that is
    -- encoded.
    rcases mem_percentEncode member with kept | percent | alnum
    · rw [standsInSegment, kept]
      rfl
    · subst percent
      rfl
    · rw [standsInSegment, keepsInSegment, alnum]
      rfl
  decoded := by
    -- The percent sign itself is encoded, so each one that is read starts a byte.
    have escapes : keepsInSegment '%' = false := rfl
    have whole := percentDecode_percentEncode escapes argument.toList []
    rwa [List.append_nil, percentDecode, List.append_nil, ← utf8Bytes_eq] at whole

/-- A segment that has the form of points is decoded to points. -/
theorem percentDecode_of_dotForm {segment : List Char}
    (points : ∀ c ∈ dotForm segment, c = '.') :
    percentDecode segment = utf8Bytes (String.ofList (dotForm segment)) := by
  rw [utf8Bytes_eq, String.toList_ofList]
  -- An encoded point, with a small or a capital letter, is one point of the form.
  fun_induction dotForm segment with
  | case1 rest ih =>
    exact congrArg (46 :: ·) (ih fun c member => points c (List.mem_cons_of_mem _ member))
  | case2 rest ih =>
    exact congrArg (46 :: ·) (ih fun c member => points c (List.mem_cons_of_mem _ member))
  | case3 c rest _ _ ih =>
    have point := points c List.mem_cons_self
    subst point
    rw [percentDecode_cons (by decide), List.flatMap_cons,
      ih fun c member => points c (List.mem_cons_of_mem _ member)]
  | case4 => rfl

/-- The arguments that are taken for steps in a path. -/
theorem isDotSegment_iff {argument : String} :
    isDotSegment argument = true ↔ argument = "." ∨ argument = ".." := by
  simp [isDotSegment]

/-- A segment that stands for no step in a path does not have the form of one. -/
theorem Encodes.isPlainSegment {segment : List Char} {text : String}
    (encodes : Encodes segment text)
    (noStep : isDotSegment text = false) : IsPlainSegment segment where
  plain := encodes.plain
  noStep := by
    -- What has the form of points is decoded to them, so that the text would be a step.
    have textIs {form : List Char} (same : dotForm segment = form) (points : ∀ c ∈ form, c = '.') :
        text = String.ofList form := by
      have decoded := percentDecode_of_dotForm (same ▸ points)
      rw [encodes.decoded, same] at decoded
      rw [← textOfUtf8_utf8Bytes text, decoded, textOfUtf8_utf8Bytes]
    constructor
    · intro point
      rw [textIs point (by simp)] at noStep
      cases noStep
    · intro points
      rw [textIs points (by simp)] at noStep
      cases noStep

/-- Whether a piece of a template is a name, which is added to a path as it is. -/
def isName (piece : List Char) : Bool :=
  piece.all keepsInSegment && dotForm piece != ['.'] && dotForm piece != ['.', '.']

section

variable {piece : List Char} {pieces : List (List Char)} {arguments : List String}

/-- A name is added to a path as it is. -/
theorem isPlainSegment_of_isName (name : isName piece = true) : IsPlainSegment piece where
  plain c member := by
    -- Letters, digits and underscores stand in a segment as they are.
    simp only [isName, Bool.and_eq_true, List.all_eq_true] at name
    rw [standsInSegment, name.1.1 c member]
    rfl
  noStep := by
    simp only [isName, Bool.and_eq_true, bne_iff_ne] at name
    exact ⟨name.1.2, name.2⟩

/-- A character with which no mark begins is passed on. -/
theorem fillTemplate_unmarked {c : Char} {rest : List Char} (unmarked : ¬ mark <+: c :: rest) :
    fillTemplate (c :: rest) arguments = (fillTemplate rest arguments).map (c :: ·) := by
  -- The first two cases start with a mark, and the last one with nothing.
  rw [fillTemplate.eq_def]
  split
  · rename_i same
    cases same
    exact absurd (List.prefix_append mark _) unmarked
  · rename_i same
    cases same
    exact absurd (List.prefix_append mark _) unmarked
  · rename_i same _ _
    cases same
    rfl
  · rename_i same
    cases same

/-- What is no percent sign starts no mark. -/
theorem fillTemplate_cons {c : Char} (plain : c ≠ '%') (rest : List Char) :
    fillTemplate (c :: rest) arguments = (fillTemplate rest arguments).map (c :: ·) :=
  fillTemplate_unmarked fun stands => plain (List.cons_prefix_cons.mp stands).1.symm

/-- A text without percent signs stays in front of what is filled. -/
theorem fillTemplate_append {front : List Char} (plain : ∀ c ∈ front, c ≠ '%') (rest : List Char) :
    fillTemplate (front ++ rest) arguments = (fillTemplate rest arguments).map (front ++ ·) := by
  -- None of the characters starts a mark, so each is passed on in front of the rest.
  induction front with
  | nil =>
    rw [List.nil_append]
    cases fillTemplate rest arguments <;> rfl
  | cons c front ih =>
    rw [List.cons_append, fillTemplate_cons (plain c List.mem_cons_self),
      ih fun d member => plain d (List.mem_cons_of_mem _ member)]
    cases fillTemplate rest arguments <;> rfl

/-- A name stays in front of what is filled. -/
theorem fillTemplate_name (name : isName piece = true) :
    fillTemplate (segmentsChars (piece :: pieces)) arguments =
      (fillTemplate (segmentsChars pieces) arguments).map ('/' :: piece ++ ·) := by
  -- Neither the slash nor anything in the name is a percent sign.
  refine fillTemplate_append (fun c member => ?_) _
  rcases List.mem_cons.mp member with slash | inside
  · subst slash
    decide
  · simp only [isName, Bool.and_eq_true, List.all_eq_true] at name
    rintro rfl
    exact absurd (name.1.1 _ inside) (by decide)

/-- A mark gives way to its argument, unless that is refused. -/
theorem fillTemplate_mark (argument : String) :
    fillTemplate (segmentsChars (mark :: pieces)) (argument :: arguments) =
      if isDotSegment argument then .error (.dotSegment argument)
      else (fillTemplate (segmentsChars pieces) arguments).map
        ('/' :: encodeSegment argument ++ ·) := by
  -- The mark is met behind its slash.
  show fillTemplate ('/' :: '%' :: 's' :: segmentsChars pieces) (argument :: arguments) = _
  rw [fillTemplate_cons (by decide), fillTemplate]
  by_cases step : isDotSegment argument = true
  · rw [if_pos step, if_pos step]
    rfl
  · rw [if_neg step, if_neg step]
    cases fillTemplate (segmentsChars pieces) arguments <;> rfl

/-- The first argument that is a step in a path is refused. -/
theorem fillTemplate_refused (regular : ∀ piece ∈ pieces, piece = mark ∨ isName piece = true)
    (enough : pieces.count mark = arguments.length) {step : String}
    (found : arguments.find? isDotSegment = some step) :
    fillTemplate (segmentsChars pieces) arguments = .error (.dotSegment step) := by
  -- Each mark takes the first of the arguments that are left.
  induction pieces generalizing arguments with
  | nil =>
    have none : arguments = [] := List.length_eq_zero_iff.mp enough.symm
    subst none
    cases found
  | cons piece pieces ih =>
    have later := fun other member => regular other (List.mem_cons_of_mem _ member)
    rcases regular piece List.mem_cons_self with isMark | name
    · subst isMark
      rw [List.count_cons_self] at enough
      obtain ⟨argument, others, rfl⟩ := List.exists_cons_of_length_eq_add_one enough.symm
      rw [fillTemplate_mark]
      -- If the argument is a step it is the first one; if not, the first one is among those left.
      by_cases isStep : isDotSegment argument = true
      · rw [List.find?_cons_of_pos isStep] at found
        cases found
        exact if_pos isStep
      · rw [List.find?_cons_of_neg isStep] at found
        rw [if_neg isStep, ih later (Nat.succ.inj enough) found]
        rfl
    · have notMark : piece ≠ mark := by
        rintro rfl
        cases name
      rw [List.count_cons_of_ne notMark] at enough
      rw [fillTemplate_name name, ih later enough found]
      rfl

/-- Where no argument is a step in a path, each one is taken into a segment of its own. -/
theorem fillTemplate_filled (regular : ∀ piece ∈ pieces, piece = mark ∨ isName piece = true)
    (enough : pieces.count mark = arguments.length)
    (noSteps : arguments.find? isDotSegment = none) :
    ∃ segments, Fills pieces arguments segments ∧ (∀ segment ∈ segments, IsPlainSegment segment) ∧
      fillTemplate (segmentsChars pieces) arguments = .ok (segmentsChars segments) := by
  -- A mark takes the first of the arguments that are left, and a name takes none.
  induction pieces generalizing arguments with
  | nil =>
    have none : arguments = [] := List.length_eq_zero_iff.mp enough.symm
    subst none
    exact ⟨[], .done, fun _ member => absurd member List.not_mem_nil, rfl⟩
  | cons piece pieces ih =>
    have later := fun other member => regular other (List.mem_cons_of_mem _ member)
    rcases regular piece List.mem_cons_self with isMark | name
    · subst isMark
      rw [List.count_cons_self] at enough
      obtain ⟨argument, others, rfl⟩ := List.exists_cons_of_length_eq_add_one enough.symm
      -- Here the argument is no step, so its segment is added as it is.
      have noStep : ¬isDotSegment argument = true :=
        List.find?_eq_none.mp noSteps argument List.mem_cons_self
      rw [List.find?_cons_of_neg noStep] at noSteps
      obtain ⟨segments, fills, plain, filled⟩ := ih later (Nat.succ.inj enough) noSteps
      have encodes := encodes_encodeSegment argument
      refine ⟨encodeSegment argument :: segments, .filled encodes fills,
        List.forall_mem_cons.mpr ⟨encodes.isPlainSegment (Bool.eq_false_iff.mpr noStep), plain⟩, ?_⟩
      rw [fillTemplate_mark, if_neg noStep, filled]
      rfl
    · have notMark : piece ≠ mark := by
        rintro rfl
        cases name
      rw [List.count_cons_of_ne notMark] at enough
      obtain ⟨segments, fills, plain, filled⟩ := ih later enough noSteps
      refine ⟨piece :: segments, .kept notMark fills,
        List.forall_mem_cons.mpr ⟨isPlainSegment_of_isName name, plain⟩, ?_⟩
      rw [fillTemplate_name name, filled]
      rfl

end

/-- A text is put together from its pieces. -/
theorem segmentsChars_splitChars (cs : List Char) :
    segmentsChars (splitChars (· == '/') cs) = '/' :: cs := by
  induction cs with
  | nil => rfl
  | cons c rest ih =>
    obtain ⟨piece, pieces, split⟩ : ∃ piece pieces, splitChars (· == '/') rest = piece :: pieces :=
      exists_splitChars rest
    rw [splitChars]
    -- A slash begins a new piece, and any other character is put in front of the first.
    by_cases slash : c = '/'
    · subst slash
      rw [if_pos (by decide)]
      show '/' :: segmentsChars (splitChars (· == '/') rest) = _
      rw [ih]
    · rw [if_neg (by simpa using slash), split]
      rw [split] at ih
      have same : piece ++ segmentsChars pieces = rest := List.cons.inj ih |>.2
      show '/' :: (c :: piece ++ segmentsChars pieces) = _
      rw [List.cons_append, same]

namespace Endpoint

/-- The names and the marks of an endpoint. -/
def pieces (endpoint : Endpoint) : List (List Char) :=
  splitChars (· == '/') endpoint.template.toList

/-- Whether an endpoint takes so many arguments: it starts with a name, and has a mark for each of
the arguments and names apart from these. -/
structure Takes (endpoint : Endpoint) (arity : Nat) : Prop where
  named : endpoint.pieces.head?.any (fun first => !first.isEmpty && first != mark) = true
  regular : endpoint.pieces.all (fun piece => piece == mark || isName piece) = true
  count : endpoint.pieces.count mark = arity

variable {endpoint : Endpoint} {arity : Nat} {arguments : List String}

/-- A template is filled behind a slash as it is without one. -/
theorem path_map_slash :
    (endpoint.path arguments).map ('/' :: ·) =
      fillTemplate (segmentsChars endpoint.pieces) arguments := by
  -- The slash in front is a piece of its own, which takes no argument.
  rw [pieces, segmentsChars_splitChars, fillTemplate_cons (by decide), path]

/-- The first piece of an endpoint is a name. -/
theorem Takes.exists_first (takes : endpoint.Takes arity) :
    ∃ first others, endpoint.pieces = first :: others ∧ first ≠ [] ∧ first ≠ mark := by
  have named := takes.named
  -- A text always has a piece, and it was checked that the first is neither empty nor a mark.
  cases pieces : endpoint.pieces with
  | nil =>
    rw [pieces] at named
    cases named
  | cons first others =>
    rw [pieces] at named
    simp only [List.head?_cons, Option.any_some, Bool.and_eq_true, bne_iff_ne] at named
    refine ⟨first, others, rfl, ?_, named.2⟩
    rintro rfl
    exact absurd named.1 (by decide)

/-- The pieces of an endpoint are marks and names. -/
theorem Takes.mark_or_name (takes : endpoint.Takes arity) :
    ∀ piece ∈ endpoint.pieces, piece = mark ∨ isName piece = true := by
  intro piece member
  have suits := List.all_eq_true.mp takes.regular piece member
  exact (Bool.or_eq_true_iff.mp suits).imp eq_of_beq id

/-- An endpoint refuses the first argument that is a step in a path. -/
theorem Takes.build_refused (takes : endpoint.Takes arity) (enough : arguments.length = arity)
    {step : String} (found : arguments.find? isDotSegment = some step) (base : Url) :
    endpoint.build base arguments = .error (.refused (.dotSegment step)) := by
  have refused := fillTemplate_refused takes.mark_or_name (takes.count.trans enough.symm) found
  rw [← path_map_slash] at refused
  -- The template is filled behind a slash with the same outcome, so it is refused without one too.
  cases filled : endpoint.path arguments with
  | ok path =>
    rw [filled] at refused
    cases refused
  | error refusal =>
    rw [filled] at refused
    cases refused
    rw [build, filled]
    rfl

/-- The path of an endpoint is made of plain segments, the first of which is a name, with each
argument in one of its own. -/
theorem Takes.exists_path (takes : endpoint.Takes arity) (enough : arguments.length = arity)
    (noSteps : arguments.find? isDotSegment = none) :
    ∃ first others, first ≠ [] ∧ (∀ segment ∈ first :: others, IsPlainSegment segment) ∧
      Fills endpoint.pieces arguments (first :: others) ∧
      endpoint.path arguments = .ok (first ++ segmentsChars others) := by
  obtain ⟨segments, fills, plain, chars⟩ :=
    fillTemplate_filled takes.mark_or_name (takes.count.trans enough.symm) noSteps
  rw [← path_map_slash] at chars
  -- The first segment is a name, which leads on from the base without a slash.
  obtain ⟨first, others, pieces, nonempty, notMark⟩ := takes.exists_first
  rw [pieces] at fills ⊢
  cases fills with
  | filled => exact absurd rfl notMark
  | @kept _ segments _ _ _ rest =>
    refine ⟨first, segments, nonempty, plain, .kept notMark rest, ?_⟩
    cases filled : endpoint.path arguments with
    | error refusal =>
      rw [filled] at chars
      cases chars
    | ok relative =>
      rw [filled] at chars
      -- The path that is joined is the one that was filled behind a slash, without that slash.
      exact congrArg Except.ok (List.cons.inj (Except.ok.inj chars)).2

/-- What an endpoint with a path leads to is what that path is joined to. -/
theorem build_of_path {base : Url} {relative : List Char}
    (filled : endpoint.path arguments = .ok relative) :
    endpoint.build base arguments = (base.join (String.ofList relative)).mapError .address := by
  rw [build, filled]
  rfl

/-- An endpoint leads to the address with each argument in a segment of its own behind the directory
of the base. -/
theorem Takes.build_behind (takes : endpoint.Takes arity) (enough : arguments.length = arity)
    (noSteps : arguments.find? isDotSegment = none) {base : Url} {parts : List (List Char)}
    (path : base.path = .segments parts) (web : isFileScheme base.scheme = false) :
    ∃ segments, Fills endpoint.pieces arguments segments ∧ endpoint.build base arguments = .ok
      { base with
        path := .segments (base.directory ++ segments), query := none, fragment := none } := by
  -- The path is filled first, and then led on from the directory of the base.
  obtain ⟨first, others, nonempty, plain, fills, filled⟩ := takes.exists_path enough noSteps
  refine ⟨first :: others, fills, ?_⟩
  rw [build_of_path filled, Url.join_segments path web nonempty plain, mapError_ok]

/-- The address that an endpoint leads to has no query and no fragment, whatever the base has. -/
theorem Takes.bare_of_build (takes : endpoint.Takes arity) (enough : arguments.length = arity)
    {base url : Url} (built : endpoint.build base arguments = .ok url) :
    url.query = none ∧ url.fragment = none := by
  -- Where an address is built no argument was refused.
  have noSteps : arguments.find? isDotSegment = none := by
    cases found : arguments.find? isDotSegment with
    | none => rfl
    | some step =>
      rw [takes.build_refused enough found] at built
      cases built
  obtain ⟨first, others, nonempty, plain, -, filled⟩ := takes.exists_path enough noSteps
  rw [build_of_path filled] at built
  have chars := standsInPath_of_mem_segments plain
  obtain ⟨c, rest, rfl⟩ := List.exists_cons_of_ne_nil nonempty
  have inSegment : standsInSegment c = true :=
    (plain _ List.mem_cons_self).plain c List.mem_cons_self
  exact Url.bare_of_join (isSlash_of_standsInSegment true inSegment) chars
    (mapError_ok_iff.mp built)

/-- An endpoint leads on from the whole path of a base that ends in a slash. -/
theorem Takes.build_filled (takes : endpoint.Takes arity) (enough : arguments.length = arity)
    (noSteps : arguments.find? isDotSegment = none) {base : Url} {before : List (List Char)}
    (directory : base.path = .segments (before ++ [[]])) (web : isFileScheme base.scheme = false) :
    ∃ segments, Fills endpoint.pieces arguments segments ∧ endpoint.build base arguments = .ok
      { base with path := .segments (before ++ segments), query := none, fragment := none } := by
  -- The base ends in a slash, so that its directory is all of its path.
  have built := takes.build_behind enough noSteps directory web
  rwa [Url.directory_of_closed directory web] at built

end Endpoint

end ContentApi
