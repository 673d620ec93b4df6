import ContentApi.Failure

/-! Metadata instances: named values, and the steps by which they were changed since. -/

namespace ContentApi

/-- A step of a patch, which addresses a value by a path. -/
inductive PatchStep where
  | add (path : String) (value : Json)
  | replace (path : String) (value : Json)
  | remove (path : String)
  | test (path : String) (value : Json)
  deriving DecidableEq

namespace PatchStep

/-- The path of a step. -/
def path : PatchStep → String
  | .add path _ | .replace path _ | .remove path | .test path _ => path

/-- The name of what a step does. -/
def op : PatchStep → String
  | .add .. => "add"
  | .replace .. => "replace"
  | .remove .. => "remove"
  | .test .. => "test"

/-- The value of a step, unless it removes one. -/
def value? : PatchStep → Option Json
  | .add _ value | .replace _ value | .test _ value => some value
  | .remove _ => none

/-- A step as a document. -/
def toJson (step : PatchStep) : Json :=
  let value := match step.value? with
    | some value => [("value", value)]
    | none => []
  .object ([("op", .text step.op), ("path", .text step.path)] ++ value)

end PatchStep

/-- A metadata instance. -/
structure Metadata where
  /-- The values by name. -/
  values : Members
  /-- The steps taken since the instance was read, the first one first. -/
  steps : List PatchStep
  deriving DecidableEq

/-- The name of the value that a path addresses. -/
def propertyOfPath (path : String) : Except Refusal String :=
  match path.toList with
  | '/' :: name => .ok (String.ofList name)
  | _ => .error (.pathWithoutSlash path)

namespace Metadata

/-- The instance without values. -/
def empty : Metadata := ⟨[], []⟩

/-- The instance that an object is. -/
def ofJson : Json → Except Refusal Metadata
  | .object values => .ok ⟨values, []⟩
  | other => .error (.notAnObject other)

/-- The values as one object. -/
def toJson (m : Metadata) : Json := .object m.values

/-- The values after a step. A test changes none. -/
def stepValues (values : Members) (name : String) : PatchStep → Members
  | .add _ value | .replace _ value => Members.insert name value values
  | .remove _ => Members.erase name values
  | .test _ _ => values

/-- Takes a step, unless its path addresses nothing. -/
def apply (m : Metadata) (step : PatchStep) : Except Refusal Metadata := do
  let name ← propertyOfPath step.path
  return ⟨stepValues m.values name step, m.steps ++ [step]⟩

/-- The value that a path addresses as a text. -/
def get (m : Metadata) (path : String) : Except Refusal (Option String) := do
  let name ← propertyOfPath path
  return match Members.find? name m.values with
    | none | some .null => none
    | some (.text s) => some s
    | some other => some other.compact

/-- The text that a value of the service's own is. -/
def system? (m : Metadata) (name : String) : Option String :=
  (Members.find? name m.values).bind Json.text?

/-- The name of the instance itself. -/
def id? (m : Metadata) : Option String := m.system? "$id"

/-- The type of the instance. -/
def type? (m : Metadata) : Option String := m.system? "$type"

/-- The object that the instance belongs to. -/
def parent? (m : Metadata) : Option String := m.system? "$parent"

/-- The scope in which the template of the instance is defined. -/
def scope? (m : Metadata) : Option String := m.system? "$scope"

/-- The template of the instance. -/
def template? (m : Metadata) : Option String := m.system? "$template"

/-- The paths of the values, except those of the service's own, whose names begin with a dollar. -/
def propertyPaths (m : Metadata) : List String :=
  (m.values.filter fun member => member.1.toList.head? ≠ some '$').map fun member =>
    "/" ++ member.1

/-- The steps taken as one document. -/
def patchJson (m : Metadata) : Json := .array (m.steps.map PatchStep.toJson)

/-- The text of the steps taken. -/
def patch (m : Metadata) : String := m.patchJson.compact

/-- The text of the values. -/
def render (m : Metadata) : String := m.toJson.compact

end Metadata

/-- Where metadata of some template is kept. -/
structure MetadataPlace where
  /-- The template. -/
  template : String
  /-- The scope in which the template is defined. -/
  scope : String
  deriving DecidableEq

/-- The place of free properties in the absence of a template, which is global; any other template
is one of the enterprise unless a scope is given. -/
def MetadataPlace.resolve (template scope : Option String) : MetadataPlace :=
  let template := template.getD "properties"
  ⟨template, scope.getD (if template = "properties" then "global" else "enterprise")⟩

end ContentApi
