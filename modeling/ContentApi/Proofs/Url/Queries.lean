import ContentApi.Proofs.Url.Segments
import ContentApi.Url.Endpoint

/-! What is put into a query comes out of the address that the query is attached to. -/

namespace ContentApi

/-- Whether a character may stand in the query of a form. -/
def standsInForm (c : Char) : Bool :=
  keepsInForm c || c == '+' || c == '%' || c == '=' || c == '&'

/-- What a form makes of a text may stand in its query. -/
theorem standsInForm_of_mem_formEncode {cs : List Char} {c : Char} (member : c ∈ formEncode cs) :
    standsInForm c = true := by
  obtain ⟨source, -, inside⟩ := List.mem_flatMap.mp member
  -- A blank becomes a plus sign, and any other character is kept or encoded byte by byte.
  by_cases blank : source = ' '
  · rw [if_pos blank, List.mem_singleton] at inside
    subst inside
    rfl
  · rw [if_neg blank] at inside
    have percent : c ∈ percentEncode keepsInForm [source] := by
      rw [percentEncode, List.flatMap_singleton]
      exact inside
    rcases mem_percentEncode percent with kept | same | alnum
    · simp [standsInForm, kept]
    · subst same
      rfl
    · simp [standsInForm, keepsInForm, alnum]

/-- What a pair is written with may stand in the query of a form. -/
theorem standsInForm_of_mem_formPairChars {pair : String × String} {c : Char}
    (member : c ∈ formPairChars pair) : standsInForm c = true := by
  -- The pair is its name, the sign between, and its value.
  rcases List.mem_append.mp member with inName | afterName
  · exact standsInForm_of_mem_formEncode inName
  · rcases List.mem_cons.mp afterName with same | inValue
    · subst same
      rfl
    · exact standsInForm_of_mem_formEncode inValue

/-- What the pairs of a form are written with may stand in its query. -/
theorem standsInForm_of_mem_formChars {c : Char} : {pairs : List (String × String)} →
    c ∈ formChars pairs → standsInForm c = true
  -- The recursion is on the pairs, as their characters are put together.
  | [], member => absurd member List.not_mem_nil
  | [_], member => standsInForm_of_mem_formPairChars member
  | pair :: next :: rest, member => by
    rw [formChars] at member
    · rcases List.mem_append.mp member with inPair | afterPair
      · exact standsInForm_of_mem_formPairChars inPair
      · rcases List.mem_cons.mp afterPair with same | later
        · subst same
          rfl
        · exact standsInForm_of_mem_formChars later
    · exact List.cons_ne_nil _ _

section

variable {c : Char}

/-- What may stand in the query of a form is visible and in ASCII. -/
theorem standsInForm_bounds (plain : standsInForm c = true) : 0x20 < c.toNat ∧ c.toNat < 0x7F := by
  simp only [standsInForm, keepsInForm, Bool.or_eq_true, beq_iff_eq] at plain
  -- Letters and digits may stand in a path as well; the other characters are told one by one.
  rcases plain with (((((((alnum | same) | same) | same) | same) | same) | same) | same) | same
  · have inPath : standsInPath c = true := by
      simp [standsInPath, standsInSegment, keepsInSegment, alnum]
    exact standsInPath_bounds inPath
  all_goals
    subst same
    decide

/-- What may not stand in the query of a form differs from what stands there. -/
theorem standsInForm_ne (plain : standsInForm c = true) {d : Char}
    (other : standsInForm d = false) :
    (c == d) = false := by
  -- What stands there is of the class, and the other one is not.
  refine beq_eq_false_iff_ne.mpr ?_
  rintro rfl
  rw [other] at plain
  cases plain

/-- What may stand in the query of a form is not encoded once more in an address of any scheme. -/
theorem keepsInQuery_of_standsInForm (special : Bool) (plain : standsInForm c = true) :
    keepsInQuery special c = true := by
  obtain ⟨low, high⟩ := standsInForm_bounds plain
  -- The characters that a query encodes are looked at one by one.
  have ne (d : Char) (other : standsInForm d = false) := standsInForm_ne plain other
  simp only [keepsInQuery, isPlainAscii]
  rw [ne ' ' rfl, ne '"' rfl, ne '#' rfl, ne '<' rfl, ne '>' rfl, ne '\'' rfl]
  simp only [Bool.or_false, Bool.and_false, Bool.not_false, Bool.and_true, Bool.and_eq_true,
    decide_eq_true_eq]
  omega

end

/-- The query of a form becomes the query of an address as it is. -/
theorem Url.withQuery_formChars (url : Url) (pairs : List (String × String)) :
    url.withQuery (formChars pairs) = { url with query := some (formChars pairs) } := by
  -- There are no tabs and line breaks to be left out, and nothing is left to be encoded.
  have whole : (formChars pairs).filter (fun c => !(c == '\t' || c == '\n' || c == '\r')) =
      formChars pairs := by
    refine List.filter_eq_self.mpr fun c member => ?_
    have ne (d : Char) (other : standsInForm d = false) :=
      standsInForm_ne (standsInForm_of_mem_formChars member) other
    rw [ne '\t' rfl, ne '\n' rfl, ne '\r' rfl]
    rfl
  rw [withQuery, whole, percentEncode_of_kept fun c member =>
    keepsInQuery_of_standsInForm _ (standsInForm_of_mem_formChars member)]

/-- The query of a form is empty exactly if the form has no pairs. -/
theorem formChars_eq_nil_iff {pairs : List (String × String)} :
    formChars pairs = [] ↔ pairs = [] := by
  -- Each pair has an equals sign, even where name and value are empty.
  match pairs with
  | [] => simp [formChars]
  | [_] => simp [formChars, formPairChars]
  | _ :: _ :: _ => simp [formChars, formPairChars]

namespace Query

/-- A step in the building of a query. -/
inductive Step where
  | pair (name value : String)
  | ifPresent (name : String) (value : Option String)
  | fields (names : List String)

/-- The pairs that a step adds: one, or none for a missing value and for no fields at all. -/
def Step.pairs : Step → List (String × String)
  | .pair name value => [(name, value)]
  | .ifPresent name value => value.toList.map fun value => (name, value)
  | .fields [] => []
  | .fields names => [("fields", ",".intercalate names)]

/-- The query after a step. -/
def take (q : Query) : Step → Query
  | .pair name value => q.add name value
  | .ifPresent name value => q.addIfPresent name value
  | .fields names => q.addFields names

/-- The query that steps build one after another. -/
def built (steps : List Step) : Query := steps.foldl take empty

/-- A step adds its pairs behind those that are there. -/
theorem pairs_take (q : Query) (step : Step) : (q.take step).pairs = q.pairs ++ step.pairs := by
  -- A step without a value or without names adds nothing.
  cases step with
  | pair name value => rfl
  | ifPresent name value =>
    cases value with
    | none => exact (List.append_nil _).symm
    | some value => rfl
  | fields names =>
    cases names with
    | nil => exact (List.append_nil _).symm
    | cons first others => rfl

/-- The pairs of a query are those that its steps have added, in their order. -/
theorem pairs_built (steps : List Step) : (built steps).pairs = steps.flatMap Step.pairs := by
  -- The query that is there already is generalised, as each step goes on from the one before.
  have onward (q : Query) :
      (steps.foldl take q).pairs = q.pairs ++ steps.flatMap Step.pairs := by
    induction steps generalizing q with
    | nil => exact (List.append_nil _).symm
    | cons step rest ih =>
      rw [List.foldl_cons, ih, pairs_take, List.append_assoc, List.flatMap_cons]
  exact onward empty

/-- The text of a query is that of its pairs. -/
theorem toList_render (q : Query) : q.render.toList = formChars q.pairs :=
  String.toList_ofList

/-- A query that was built is attached to an address as it is, and not at all if it is empty. -/
theorem buildWith_chars (q : Query) {endpoint : Endpoint} {base url : Url}
    {arguments : List String} (address : endpoint.build base arguments = .ok url)
    (bare : url.query = none) : endpoint.buildWith base q.chars arguments =
      .ok { url with query := if q.isEmpty then none else some q.chars } := by
  -- No question mark stands in front of the query of a form, where it would be dropped.
  have whole : q.chars.dropWhile (· == '?') = q.chars := by
    refine List.dropWhile_eq_self_iff.mpr fun _ mark => ?_
    have plain : standsInForm q.chars[0] = true :=
      standsInForm_of_mem_formChars (List.getElem_mem _)
    rw [standsInForm_ne plain rfl] at mark
    cases mark
  have attached : endpoint.buildWith base q.chars arguments =
      .ok (if q.chars.isEmpty then url else url.withQuery q.chars) := by
    rw [Endpoint.buildWith, address]
    show Except.ok (if (q.chars.dropWhile (· == '?')).isEmpty then url
      else url.withQuery (q.chars.dropWhile (· == '?'))) = _
    rw [whole]
  rw [attached]
  by_cases none : q.pairs = []
  · have noChars : q.chars.isEmpty = true :=
      List.isEmpty_iff.mpr (formChars_eq_nil_iff.mpr none)
    have isEmpty : q.isEmpty = true := List.isEmpty_iff.mpr none
    rw [if_pos noChars, if_pos isEmpty, ← bare]
  · have someChars : ¬ q.chars.isEmpty = true := fun empty =>
      none (formChars_eq_nil_iff.mp (List.isEmpty_iff.mp empty))
    have notEmpty : ¬ q.isEmpty = true := fun empty => none (List.isEmpty_iff.mp empty)
    rw [if_neg someChars, if_neg notEmpty]
    exact congrArg _ (url.withQuery_formChars q.pairs)

/-- What is put into a query comes out of it: its text has the pairs in the order in which the steps
have added them, and is empty exactly if there are none. Attached to an address without a query the
text is the query of that address, which has no other pairs and is otherwise as it was. -/
theorem built_read_back (steps : List Step) :
    let q := built steps
    formPairs q.render.toList = steps.flatMap Step.pairs ∧
    (q.render = "" ↔ q.isEmpty = true) ∧ '#' ∉ q.render.toList ∧
    ∀ (endpoint : Endpoint) (base : Url) (arguments : List String) (url : Url),
      endpoint.build base arguments = .ok url → url.query = none →
      ∃ attached, endpoint.buildWith base q.render.toList arguments = .ok attached ∧
        attached = { url with query := if q.isEmpty then none else some q.render.toList } ∧
        attached.queryPairs = steps.flatMap Step.pairs := by
  intro q
  have read : formPairs (formChars q.pairs) = steps.flatMap Step.pairs := by
    rw [formPairs_formChars, pairs_built]
  rw [toList_render]
  refine ⟨read, ?_, fun mark => ?_, fun endpoint base arguments url address bare => ?_⟩
  · rw [← String.toList_eq_nil_iff, toList_render, formChars_eq_nil_iff, isEmpty,
      List.isEmpty_iff]
  · exact absurd (standsInForm_of_mem_formChars mark) (by decide)
  · refine ⟨_, q.buildWith_chars address bare, rfl, ?_⟩
    rw [Url.queryPairs, ← read]
    -- Where no query is attached there are no pairs to be read.
    by_cases none : q.isEmpty = true
    · have noPairs : q.pairs = [] := List.isEmpty_iff.mp none
      rw [if_pos none, noPairs]
      rfl
    · rw [if_neg none]
      rfl

/-- A service that is asked without a secured channel. -/
def plainBase : Url :=
  ⟨"http".toList, some ⟨[], [], .domain "api.box.test", none⟩, .segments ["2.0".toList, []], none,
    none⟩

/-- Steps of which the names and values hold all that divides the parts of an address. -/
def hostileSteps : List Step :=
  [.pair "a&b=" "1+1 = 2%23#é", .ifPresent "marker" none, .fields [], .pair "" "?",
    .fields ["name", "a,b"], .ifPresent "a&b=" (some "")]

/-- Whatever divides the parts of an address is kept within the names and values that it is in. -/
theorem read_hostileSteps : ∃ address attached,
    (Endpoint.mk "folders/%s/items").build plainBase ["7?#"] = .ok address ∧
    (Endpoint.mk "folders/%s/items").buildWith plainBase
      (built hostileSteps).render.toList ["7?#"] = .ok attached ∧
    attached.path = address.path ∧ attached.fragment = none ∧
    attached.queryPairs =
      [("a&b=", "1+1 = 2%23#é"), ("", "?"), ("fields", "name,a,b"), ("a&b=", "")] := by
  -- The address is computed once without the query.
  obtain ⟨address, found, path⟩ : ∃ address,
      (Endpoint.mk "folders/%s/items").build plainBase ["7?#"] = .ok address ∧
        address.query = none ∧ address.fragment = none := ⟨_, by cbv, rfl, rfl⟩
  obtain ⟨-, -, -, attach⟩ := built_read_back hostileSteps
  obtain ⟨attached, same, rfl, pairs⟩ := attach _ _ _ _ found path.1
  exact ⟨address, _, found, same, rfl, path.2, pairs⟩

end Query

end ContentApi
