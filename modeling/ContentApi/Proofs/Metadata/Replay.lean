import ContentApi.Metadata.Basic
import ContentApi.Proofs.Json.Patch
import Mathlib

/-! The values of a metadata instance are what its patch makes of the values that it began with. -/

namespace ContentApi

/-- Whether a path is a slash and the name of one property, as it stands and in a pointer. -/
def IsPropertyPath (path : String) : Prop :=
  ∃ name, path.toList = '/' :: name ∧ ∀ c ∈ name, c ≠ '/' ∧ c ≠ '~'

/-- A name without tildes stands for itself in a pointer. -/
theorem pointerName?_of_plain {name : List Char} (plain : ∀ c ∈ name, c ≠ '~') :
    pointerName? name = some name := by
  induction name with
  | nil => rfl
  | cons c rest ih =>
    rw [pointerName?.eq_def]
    -- Only a tilde begins a pair of characters that stands for another one.
    split
    · rename_i same
      cases same
      exact absurd rfl (plain '~' List.mem_cons_self)
    · rename_i same
      cases same
      exact absurd rfl (plain '~' List.mem_cons_self)
    · rename_i same
      cases same
      exact absurd rfl (plain '~' List.mem_cons_self)
    · rename_i same
      cases same
      rw [ih fun d member => plain d (List.mem_cons_of_mem _ member)]
      rfl
    · rename_i same
      cases same

/-- The path of a property is a pointer to it. -/
theorem IsPropertyPath.pointerNames? {path : String} (single : IsPropertyPath path) :
    ∃ name, propertyOfPath path = .ok name ∧ ContentApi.pointerNames? path = some [name] := by
  obtain ⟨name, chars, plain⟩ := single
  -- Behind the slash in front there is one name, which no further slash divides.
  have whole : splitChars (· == '/') name = [name] :=
    splitChars_of_unbroken fun c member => by simpa using (plain c member).1
  have stands := pointerName?_of_plain fun c member => (plain c member).2
  refine ⟨String.ofList name, ?_, ?_⟩
  · simp only [propertyOfPath, chars]
  · simp [ContentApi.pointerNames?, chars, whole, stands]

namespace PatchStep

/-- Whether a step fits what is there under its name: what it replaces or removes must be there, and
what it tests must be there and the same. -/
def fits (same : Json → Json → Bool) (found : Option Json) : PatchStep → Bool
  | .add _ _ => true
  | .replace _ _ | .remove _ => found.isSome
  | .test _ value => found.any (same · value)

/-- A patch makes of values what a step makes of them, if the step fits. -/
theorem stepped_toJson (same : Json → Json → Bool) (values : Members) (step : PatchStep)
    {name : String} (leads : pointerNames? step.path = some [name]) :
    Json.stepped same step.toJson (.object values) =
      if step.fits same (Members.find? name values) then
        some (.object (Metadata.stepValues values name step))
      else none := by
  -- Each step says its path under the same member of the patch.
  have pointer : step.toJson.pointer? "path" = some [name] := by
    cases step <;> exact leads
  rw [Json.stepped, pointer]
  -- A value may be added anywhere; the other steps want one to be there, and a test wants it equal.
  cases step with
  | add path value => rfl
  | replace path value =>
    show (Members.find? name values).map (fun _ => Json.object _) = _
    cases Members.find? name values <;> rfl
  | remove path =>
    show (Members.find? name values).map (fun _ => Json.object _) = _
    cases Members.find? name values <;> rfl
  | test path value =>
    show ((Json.part? [name] (.object values)).bind fun found =>
      if same found value then some (Json.object values) else none) = _
    rw [Json.part?]
    cases Members.find? name values <;> rfl

end PatchStep

namespace Metadata

/-- What may be done with a metadata instance: a step is taken, or a value is looked up. -/
inductive Access where
  | take (step : PatchStep)
  | get (path : String)

/-- The path of an access. -/
def Access.path : Access → String
  | .take step => step.path
  | .get path => path

/-- What an access gives, and the instance after it. An access that is refused changes nothing. -/
def access (m : Metadata) : Access → Except Refusal (Option String) × Metadata
  | .take step =>
    match m.apply step with
    | .ok next => (.ok none, next)
    | .error refusal => (.error refusal, m)
  | .get path => (m.get path, m)

/-- What accesses give one after another, and the instance after them. -/
def accessEach (m : Metadata) : List Access → List (Except Refusal (Option String)) × Metadata
  | [] => ([], m)
  | first :: rest =>
    let done := m.access first
    let later := done.2.accessEach rest
    (done.1 :: later.1, later.2)

/-- The step that an access has taken, if it was one and was not refused. -/
def Access.taken? : Access → Except Refusal (Option String) → Option PatchStep
  | .take step, .ok _ => some step
  | _, _ => none

/-- The steps that accesses have taken, the first one first. -/
def taken (accesses : List Access) (outcomes : List (Except Refusal (Option String))) :
    List PatchStep :=
  (accesses.zip outcomes).filterMap fun done => done.1.taken? done.2

/-- A path without a slash in front leads to no property. -/
theorem propertyOfPath_error {path : String} (noSlash : path.toList.head? ≠ some '/') :
    propertyOfPath path = .error (.pathWithoutSlash path) := by
  rw [propertyOfPath]
  -- The reader takes nothing but what is behind a slash in front.
  split
  · rename_i chars
    exact absurd (congrArg List.head? chars) noSlash
  · rfl

/-- A path with a slash in front leads to a property. -/
theorem propertyOfPath_ok {path : String} (slash : path.toList.head? = some '/') :
    ∃ name, propertyOfPath path = .ok name := by
  -- The property is all that stands behind the slash.
  obtain ⟨rest, chars⟩ := List.head?_eq_some_iff.mp slash
  exact ⟨String.ofList rest, by simp only [propertyOfPath, chars]⟩

/-- A step is taken at the property that its path leads to. -/
theorem apply_ok (m : Metadata) {step : PatchStep} {name : String}
    (leads : propertyOfPath step.path = .ok name) :
    m.apply step = .ok ⟨stepValues m.values name step, m.steps ++ [step]⟩ := by
  rw [apply, leads]
  rfl

/-- A step without a property is refused. -/
theorem apply_error (m : Metadata) {step : PatchStep} {refusal : Refusal}
    (refused : propertyOfPath step.path = .error refusal) : m.apply step = .error refusal := by
  rw [apply, refused]
  rfl

/-- An access whose path has no slash in front is refused and changes nothing. -/
theorem access_refused (m : Metadata) {a : Access} (noSlash : a.path.toList.head? ≠ some '/') :
    m.access a = (.error (.pathWithoutSlash a.path), m) := by
  have refused := propertyOfPath_error noSlash
  -- Both kinds of access look for the name of the property first.
  cases a with
  | take step => rw [access, m.apply_error refused, Access.path]
  | get path =>
    have unread : m.get path = .error (.pathWithoutSlash path) := by
      rw [get, show propertyOfPath path = _ from refused]
      rfl
    exact Prod.ext unread rfl

/-- An access whose path has a slash in front is not refused. -/
theorem access_accepted (m : Metadata) {a : Access} (slash : a.path.toList.head? = some '/') :
    ∃ value, (m.access a).1 = .ok value := by
  obtain ⟨name, leads⟩ := propertyOfPath_ok slash
  -- A path that leads to a name lets every access through, and a reading finds what is there.
  cases a with
  | take step =>
    rw [access, m.apply_ok leads]
    exact ⟨none, rfl⟩
  | get path =>
    cases read : m.get path with
    | ok value => exact ⟨value, by rw [access, read]⟩
    | error refusal =>
      rw [get, show propertyOfPath path = _ from leads] at read
      cases read

/-- One access adds the step that it has taken to those before it. -/
theorem steps_access (m : Metadata) (a : Access) :
    (m.access a).2.steps = m.steps ++ (a.taken? (m.access a).1).toList := by
  -- A reading adds nothing, and neither does a step whose path is refused.
  cases a with
  | get path => exact (List.append_nil _).symm
  | take step =>
    rw [access]
    cases leads : propertyOfPath step.path with
    | error refusal =>
      rw [m.apply_error leads]
      exact (List.append_nil _).symm
    | ok name =>
      rw [m.apply_ok leads]
      rfl

/-- The steps that accesses have taken begin with that of the first one, if it has taken one. -/
theorem taken_cons (a : Access) (rest : List Access) (outcome : Except Refusal (Option String))
    (outcomes : List (Except Refusal (Option String))) :
    taken (a :: rest) (outcome :: outcomes) = (a.taken? outcome).toList ++ taken rest outcomes := by
  -- A refused access has taken no step, and one that was not refused has taken one.
  rw [taken, taken, List.zip_cons_cons, List.filterMap_cons]
  cases a.taken? outcome <;> rfl

/-- Accesses add the steps that they have taken, in their order. -/
theorem steps_accessEach (m : Metadata) (accesses : List Access) :
    (m.accessEach accesses).2.steps = m.steps ++ taken accesses (m.accessEach accesses).1 := by
  -- One access adds the steps that it has taken, and the later ones go on from there.
  induction accesses generalizing m with
  | nil => exact (List.append_nil _).symm
  | cons a rest ih => rw [accessEach, ih, steps_access, List.append_assoc, taken_cons]

section

variable {same : Json → Json → Bool} {result : Json}

/-- What a patch makes of the values before a step are the values after it. -/
theorem eq_of_stepped {m : Metadata} {step : PatchStep} (single : IsPropertyPath step.path)
    (made : Json.stepped same step.toJson m.toJson = some result) :
    result = (m.access (.take step)).2.toJson := by
  -- The path names one property, in the patch as in the instance.
  obtain ⟨name, leads, pointer⟩ := single.pointerNames?
  rw [toJson, step.stepped_toJson same m.values pointer] at made
  rw [access, m.apply_ok leads]
  split at made
  · exact (Option.some.inj made).symm
  · cases made

/-- What the steps that accesses have taken make of the values before them are the values after
them. -/
theorem eq_of_replayed {m : Metadata} {accesses : List Access}
    (single : ∀ step ∈ taken accesses (m.accessEach accesses).1, IsPropertyPath step.path)
    (made : ((taken accesses (m.accessEach accesses).1).map PatchStep.toJson).foldlM
      (fun value step => Json.stepped same step value) m.toJson = some result) :
    result = (m.accessEach accesses).2.toJson := by
  -- The induction is on the accesses, and the values that a step has left are those for the rest.
  induction accesses generalizing m with
  | nil => exact (Option.some.inj made).symm
  | cons a rest ih =>
    rw [accessEach, taken_cons] at single made
    cases a with
    | get path => exact ih single made
    | take step =>
      rw [accessEach]
      cases leads : propertyOfPath step.path with
      | error refusal =>
        -- What is refused is no step of the patch, and leaves the instance as it was.
        have kept : m.access (.take step) = (.error refusal, m) := by
          rw [access, m.apply_error leads]
        rw [kept] at single made ⊢
        exact ih single made
      | ok name =>
        have taken : (Access.take step).taken? (m.access (.take step)).1 = some step := by
          rw [access, m.apply_ok leads]
          rfl
        rw [taken] at single made
        obtain ⟨value, first, later⟩ := Option.bind_eq_some_iff.mp made
        have here := single step (List.mem_append_left _ List.mem_cons_self)
        rw [eq_of_stepped here first] at later
        exact ih (fun other inside => single other (List.mem_append_right _ inside)) later

end

/-- The values of a metadata instance are what its patch makes of the object that it was read from.
An access is refused exactly if its path has no slash in front, and then changes nothing. The patch
lists the steps that were taken, in their order. And where each of them names one property, the
patch makes of the object, if it fits, the values of the instance. -/
theorem values_replayed (values : Members) (accesses : List Access) :
    ∃ start, ofJson (.object values) = .ok start ∧
    (∀ (m : Metadata) (a : Access),
      (a.path.toList.head? = some '/' → ∃ value, (m.access a).1 = .ok value) ∧
      (a.path.toList.head? ≠ some '/' →
        m.access a = (.error (.pathWithoutSlash a.path), m))) ∧
    let outcomes := (start.accessEach accesses).1
    let after := (start.accessEach accesses).2
    after.patchJson = .array ((taken accesses outcomes).map PatchStep.toJson) ∧
    after.patch = after.patchJson.compact ∧
    ((∀ step ∈ taken accesses outcomes, IsPropertyPath step.path) →
      ∀ (same : Json → Json → Bool) (result : Json),
        (Json.object values).patched same after.patchJson = some result →
        result = after.toJson) := by
  refine ⟨⟨values, []⟩, rfl, fun m a => ⟨m.access_accepted, m.access_refused⟩, ?_⟩
  intro outcomes after
  -- The steps are those that were taken, as the instance begins without any.
  have listed : after.patchJson = .array ((taken accesses outcomes).map PatchStep.toJson) := by
    rw [patchJson, steps_accessEach]
    rfl
  refine ⟨listed, rfl, fun single same result made => ?_⟩
  rw [listed] at made
  exact eq_of_replayed single made

/-- Two values of an instance. -/
def draftValues : Members := [("client", .text "Acme"), ("due", .flag true)]

/-- Accesses of every kind, one of which is refused. -/
def draftAccesses : List Access :=
  [.take (.add "/amount" (.number (.integer 5))), .take (.replace "client" .null),
    .take (.replace "/client" .null), .take (.remove "/due"), .get "/client",
    .take (.test "/amount" (.number (.integer 5))), .take (.add "/client" (.text "Ann"))]

/-- The patch of a draft fits the values that it began with, and makes of them those of the draft.
-/
theorem draft_replayed :
    let ended := (Metadata.mk draftValues []).accessEach draftAccesses
    (∀ step ∈ taken draftAccesses ended.1, IsPropertyPath step.path) ∧
    (Json.object draftValues).patched (fun a b => decide (a = b)) ended.2.patchJson =
      some (.object [("amount", .number (.integer 5)), ("client", .text "Ann")]) ∧
    ended.2.toJson = .object [("amount", .number (.integer 5)), ("client", .text "Ann")] := by
  intro ended
  -- The outcomes are computed once, and the steps that were taken are read from them.
  have steps : taken draftAccesses ended.1 = [.add "/amount" (.number (.integer 5)),
      .replace "/client" .null, .remove "/due", .test "/amount" (.number (.integer 5)),
      .add "/client" (.text "Ann")] := by cbv
  have single : ∀ step ∈ taken draftAccesses ended.1, IsPropertyPath step.path := by
    rw [steps]
    simp only [List.forall_mem_cons, PatchStep.path]
    have amount : IsPropertyPath "/amount" := ⟨"amount".toList, rfl, by simp⟩
    have client : IsPropertyPath "/client" := ⟨"client".toList, rfl, by simp⟩
    have due : IsPropertyPath "/due" := ⟨"due".toList, rfl, by simp⟩
    exact ⟨amount, client, due, amount, client, List.forall_mem_nil _⟩
  have made : (Json.object draftValues).patched (fun a b => decide (a = b)) ended.2.patchJson =
      some (.object [("amount", .number (.integer 5)), ("client", .text "Ann")]) := by cbv
  obtain ⟨start, read, -, -, -, replays⟩ := values_replayed draftValues draftAccesses
  cases read
  exact ⟨single, made, (replays single _ _ made).symm⟩

end Metadata

end ContentApi
