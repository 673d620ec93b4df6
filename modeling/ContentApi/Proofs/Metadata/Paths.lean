import ContentApi.Proofs.Metadata.Replay

/-! The paths that a metadata instance lists lead to its properties, in it and in its patch. -/

namespace ContentApi

/-- The path under which a property is listed. -/
def propertyPath (name : String) : String := "/" ++ name

/-- Whether a name is its own spelling in a pointer. -/
def IsPlainName (name : String) : Prop := ∀ c ∈ name.toList, c ≠ '/' ∧ c ≠ '~'

instance (name : String) : Decidable (IsPlainName name) :=
  List.decidableBAll _ _

@[simp] theorem toList_propertyPath (name : String) :
    (propertyPath name).toList = '/' :: name.toList := by
  simp [propertyPath]

/-- The path of a property leads to it. -/
@[simp] theorem propertyOfPath_propertyPath (name : String) :
    propertyOfPath (propertyPath name) = .ok name := by
  simp [propertyOfPath]

/-- Distinct names have distinct paths. -/
theorem propertyPath_injective : Function.Injective propertyPath := by
  -- The path of a name is that name behind a slash.
  intro name other same
  have chars := congrArg String.toList same
  rw [toList_propertyPath, toList_propertyPath] at chars
  exact String.toList_injective (List.cons.inj chars).2

/-- Each tilde of a name in a pointer stands with a digit for one character. -/
theorem length_pointerName? {piece name : List Char} (reads : pointerName? piece = some name) :
    name.length + piece.count '~' = piece.length := by
  -- The induction is along the reader, which takes two characters at a tilde and one elsewhere.
  induction piece using pointerName?.induct generalizing name with
  | case1 rest ih | case2 rest ih =>
    obtain ⟨later, here, rfl⟩ := Option.map_eq_some_iff.mp reads
    have shorter := ih here
    simp only [List.length_cons, List.count_cons_self,
      List.count_cons_of_ne (show '0' ≠ '~' by decide),
      List.count_cons_of_ne (show '1' ≠ '~' by decide)]
    omega
  | case3 rest noZero noOne => simp [pointerName?] at reads
  | case4 c rest noZero noOne noTilde ih =>
    rw [pointerName?] at reads
    · obtain ⟨later, here, rfl⟩ := Option.map_eq_some_iff.mp reads
      have shorter := ih here
      rw [List.length_cons, List.length_cons, List.count_cons_of_ne noTilde]
      omega
    · exact noZero
    · exact noOne
    · exact noTilde
  | case5 =>
    cases reads
    rfl

/-- A name in a pointer that is its own spelling has no tilde. -/
theorem plain_of_pointerName? {piece : List Char} (reads : pointerName? piece = some piece) :
    ∀ c ∈ piece, c ≠ '~' := by
  -- Each escape is two characters that are read as one, so that what reads as itself has none.
  have length := length_pointerName? reads
  have noTilde : piece.count '~' = 0 := by omega
  rintro c inside rfl
  exact List.count_eq_zero.mp noTilde inside

/-- Pieces that are read as one name are one piece. -/
theorem single_of_mapM {pieces : List (List Char)} {name : String}
    (leads : (pieces.mapM fun piece => (pointerName? piece).map String.ofList) = some [name]) :
    ∃ piece, pieces = [piece] ∧ pointerName? piece = some name.toList := by
  cases pieces with
  | nil => cases leads
  | cons piece rest =>
    rw [List.mapM_cons] at leads
    obtain ⟨first, here, leads⟩ := Option.bind_eq_some_iff.mp leads
    obtain ⟨others, later, same⟩ := Option.bind_eq_some_iff.mp leads
    cases same
    obtain ⟨chars, reads, rfl⟩ := Option.map_eq_some_iff.mp here
    refine ⟨piece, ?_, by rwa [String.toList_ofList]⟩
    -- A second piece would be a second name.
    cases rest with
    | nil => rfl
    | cons second rest =>
      rw [List.mapM_cons] at later
      obtain ⟨_, -, later⟩ := Option.bind_eq_some_iff.mp later
      obtain ⟨_, -, impossible⟩ := Option.bind_eq_some_iff.mp later
      cases impossible

/-- The path of a property is a pointer to it exactly if its name is plain. -/
theorem pointerNames?_propertyPath {name : String} :
    pointerNames? (propertyPath name) = some [name] ↔ IsPlainName name := by
  constructor
  · intro leads
    -- The names of a pointer are read from the pieces between its slashes.
    simp only [pointerNames?, toList_propertyPath] at leads
    obtain ⟨piece, whole, reads⟩ := single_of_mapM leads
    have unbroken := unbroken_of_splitChars whole
    rw [splitChars_of_unbroken unbroken] at whole
    cases whole
    exact fun c inside => ⟨by simpa using unbroken c inside, plain_of_pointerName? reads c inside⟩
  · intro plain
    obtain ⟨property, leads, pointer⟩ : ∃ property, propertyOfPath (propertyPath name) =
        .ok property ∧ pointerNames? (propertyPath name) = some [property] :=
      IsPropertyPath.pointerNames? ⟨name.toList, toList_propertyPath name, plain⟩
    rw [propertyOfPath_propertyPath] at leads
    cases leads
    exact pointer

/-- Whether a path leads the steps of a patch to the member of a name: a step that fits what stands
under the name makes of the values what it makes of those of an instance, and no other fits. -/
def LeadsTo (path name : String) : Prop :=
  ∀ (same : Json → Json → Bool) (values : Members) (step : PatchStep), step.path = path →
    Json.stepped same step.toJson (.object values) =
      if step.fits same (Members.find? name values) then
        some (.object (Metadata.stepValues values name step))
      else none

/-- An object with one null is changed to an object by a replacement of that null alone. -/
theorem eq_of_changed_lone {names : List String} {name : String} {value : Json} {made : Members}
    (changed : Json.changed (.replace value) names (.object [(name, .null)]) =
      some (.object made)) (noObject : value.isObject = false) : names = [name] := by
  match names with
  | [] =>
    -- The whole object would be replaced, by what is none.
    cases changed
    cases noObject
  | [first] =>
    by_cases same : name = first
    · rw [same]
    · simp [Json.changed, Json.Change.ofMember, Members.find?_cons, same] at changed
  | first :: second :: rest =>
    -- There is nothing inside null.
    by_cases same : name = first
    · cases rest <;> simp [Json.changed, Members.find?_cons, same] at changed
    · simp [Json.changed, Members.find?_cons, same] at changed

/-- A path leads to the member of a name exactly if it is a pointer with that name alone. -/
theorem leadsTo_iff {path name : String} :
    LeadsTo path name ↔ pointerNames? path = some [name] := by
  constructor
  · intro leads
    -- A replacement fits where nothing but the member is there, which shows where the path leads.
    have replaced := leads (fun _ _ => false) [(name, .null)] (.replace path (.flag true)) rfl
    have fits : (PatchStep.replace path (.flag true)).fits (fun _ _ => false)
        (Members.find? name [(name, .null)]) = true := by
      simp [PatchStep.fits, Members.find?_cons]
    rw [if_pos fits, Json.stepped] at replaced
    obtain ⟨names, pointer, changed⟩ := Option.bind_eq_some_iff.mp replaced
    have only : names = [name] := eq_of_changed_lone changed rfl
    rw [← only]
    exact pointer
  · rintro pointer same values step rfl
    exact step.stepped_toJson same values pointer

/-- A value as the text that is read for it, of which null has none. -/
def Json.reading? : Json → Option String
  | .null => none
  | .text s => some s
  | other => some other.compact

namespace Metadata

variable (m : Metadata)

/-- What is listed are the paths of the properties whose names do not begin with a dollar. -/
theorem mem_propertyPaths {path : String} : path ∈ m.propertyPaths ↔
    ∃ name, name.toList.head? ≠ some '$' ∧ (Members.find? name m.values).isSome = true ∧
      path = propertyPath name := by
  -- A name is listed once for each member that has it, and being found is being one of them.
  simp only [Members.find?_isSome, List.mem_map]
  constructor
  · intro listed
    obtain ⟨member, kept, rfl⟩ := List.mem_map.mp listed
    obtain ⟨inside, user⟩ := List.mem_filter.mp kept
    exact ⟨member.1, by simpa using user, ⟨member, inside, rfl⟩, rfl⟩
  · rintro ⟨_, user, ⟨member, inside, rfl⟩, rfl⟩
    exact List.mem_map.mpr ⟨member, List.mem_filter.mpr ⟨inside, by simpa using user⟩, rfl⟩

/-- No path is listed twice. -/
theorem nodup_propertyPaths (distinct : m.values.Distinct) : m.propertyPaths.Nodup := by
  -- The listed names are some of those in the values, which are distinct.
  have names : ((m.values.filter fun member => member.1.toList.head? ≠ some '$').map
      Prod.fst).Nodup := distinct.sublist (List.filter_sublist.map Prod.fst)
  have listed := names.map propertyPath_injective
  rwa [List.map_map] at listed

/-- What is read at the path of a property is its value. -/
theorem get_propertyPath (name : String) :
    m.get (propertyPath name) = .ok ((Members.find? name m.values).bind Json.reading?) := by
  rw [get, propertyOfPath_propertyPath]
  refine congrArg Except.ok ?_
  -- Only texts, flags and numbers are read, and a list or an object is read as nothing.
  cases Members.find? name m.values with
  | none => rfl
  | some value => cases value <;> rfl

end Metadata

/-- What a step leaves under the name that it is taken at. -/
def PatchStep.left? (found : Option Json) : PatchStep → Option Json
  | .add _ value | .replace _ value => some value
  | .remove _ => none
  | .test _ _ => found

namespace Metadata

/-- A step changes nothing but the value that it is taken at. -/
theorem find?_stepValues {values : Members} (distinct : values.Distinct) (name other : String)
    (step : PatchStep) :
    Members.find? other (stepValues values name step) =
      if other = name then step.left? (Members.find? name values)
      else Members.find? other values := by
  -- The step decides: three of them leave their own name with another value, and a test leaves all.
  cases step with
  | add path value | replace path value =>
    rw [stepValues, Members.find?_insert]
    simp only [eq_comm, PatchStep.left?]
  | remove path => exact Members.find?_erase name other distinct
  | test path value =>
    rw [stepValues, PatchStep.left?]
    split
    · rename_i same
      rw [same]
    · rfl

/-- The paths that an instance lists lead to its properties. They are those of the names that do not
begin with a dollar, and distinct names have distinct paths. For any name, the path is accepted:
what is read there is the value of the name, and a step that is taken there is put in the patch and
changes that value alone. And the step does the same to the object that the patch is for exactly if
the name is plain, as the path is a pointer there. -/
theorem propertyPaths_lead (m : Metadata) (distinct : m.values.Distinct) :
    (∀ path, path ∈ m.propertyPaths ↔ ∃ name, name.toList.head? ≠ some '$' ∧
      (Members.find? name m.values).isSome = true ∧ path = propertyPath name) ∧
    m.propertyPaths.Nodup ∧ Function.Injective propertyPath ∧
    ∀ name,
      m.get (propertyPath name) = .ok ((Members.find? name m.values).bind Json.reading?) ∧
      (∀ step : PatchStep, step.path = propertyPath name → ∃ next, m.apply step = .ok next ∧
        next.steps = m.steps ++ [step] ∧ ∀ other, Members.find? other next.values =
          if other = name then step.left? (Members.find? name m.values)
          else Members.find? other m.values) ∧
      (LeadsTo (propertyPath name) name ↔ IsPlainName name) := by
  refine ⟨fun path => m.mem_propertyPaths, m.nodup_propertyPaths distinct, propertyPath_injective,
    fun name => ⟨m.get_propertyPath name, fun step path => ?_,
      leadsTo_iff.trans pointerNames?_propertyPath⟩⟩
  -- The path leads to the name in the instance, whatever its characters are.
  have leads : propertyOfPath step.path = .ok name := by
    rw [path, propertyOfPath_propertyPath]
  exact ⟨_, m.apply_ok leads, rfl, fun other => find?_stepValues distinct name other step⟩

/-- An instance with a property of a plain name and one of a name with a slash. -/
def mixedInstance : Metadata where
  values := [("$type", .text "properties"), ("a/b", .flag true), ("client", .text "Acme")]
  steps := []

/-- The plain name is read and listed under its path, which leads to it in the patch too. -/
theorem propertyPaths_lead_client : mixedInstance.values.Distinct ∧
    "/client" ∈ mixedInstance.propertyPaths ∧ mixedInstance.get "/client" = .ok (some "Acme") ∧
    (∃ next, mixedInstance.apply (.remove "/client") = .ok next ∧
      Members.find? "client" next.values = none) ∧
    LeadsTo "/client" "client" := by
  -- The names are in order, so that they are distinct.
  have distinct : mixedInstance.values.Distinct := Members.Ascending.distinct (by decide)
  have path : "/client" = propertyPath "client" := rfl
  obtain ⟨listed, -, -, at_name⟩ := propertyPaths_lead mixedInstance distinct
  obtain ⟨read, taken, leads⟩ := at_name "client"
  obtain ⟨next, ok, -, left⟩ := taken (.remove "/client") path
  exact ⟨distinct, (listed _).mpr ⟨"client", by simp, rfl, path⟩, read,
    ⟨next, ok, left "client"⟩, leads.mpr (by decide)⟩

/-- The other name is listed as well, but its path leads to a value inside another one in the patch,
where a replacement of what is there does not fit. A name with a tilde is listed under what is no
pointer, or one to another name. -/
theorem propertyPaths_mislead :
    "/a/b" ∈ mixedInstance.propertyPaths ∧ mixedInstance.get "/a/b" = .ok (some "true") ∧
    pointerNames? "/a/b" = some ["a", "b"] ∧ ¬LeadsTo "/a/b" "a/b" ∧
    Json.stepped (fun a b => decide (a = b)) (PatchStep.replace "/a/b" .null).toJson
      mixedInstance.toJson = none ∧
    pointerNames? (propertyPath "a~") = none ∧
    pointerNames? (propertyPath "a~1b") = some ["a/b"] := by
  -- In the patch the slash inside the name divides it in two.
  have names : pointerNames? "/a/b" = some ["a", "b"] := by decide +kernel
  refine ⟨by decide +kernel, by decide +kernel, names, fun leads => ?_, by decide +kernel,
    by decide +kernel, by decide +kernel⟩
  rw [leadsTo_iff, names] at leads
  simp at leads

end Metadata

end ContentApi
