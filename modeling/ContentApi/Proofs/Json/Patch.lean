import ContentApi.Calendar.Reader
import ContentApi.Proofs.Json.Overlay
import ContentApi.Proofs.Url.Form

/-! Patches: documents that say step by step how another document is to be changed. -/

namespace ContentApi

/-- A name in a pointer, where a tilde and a digit stand for a tilde and for a slash. -/
def pointerName? : List Char → Option (List Char)
  | '~' :: '0' :: rest => (pointerName? rest).map ('~' :: ·)
  | '~' :: '1' :: rest => (pointerName? rest).map ('/' :: ·)
  | '~' :: _ => none
  | c :: rest => (pointerName? rest).map (c :: ·)
  | [] => some []

/-- The names that a pointer leads through, each of which has a slash in front. The empty pointer
leads to the whole document. -/
def pointerNames? (pointer : String) : Option (List String) :=
  match pointer.toList with
  | [] => some []
  | '/' :: rest =>
    (splitChars (· == '/') rest).mapM fun piece => (pointerName? piece).map String.ofList
  | _ => none

/-- The place in a list that a name is the number of, which has no zeros in front. -/
def placeOfName? (name : String) : Option Nat :=
  match name.toList with
  | [] => none
  | ['0'] => some 0
  | '0' :: _ => none
  | digits => if digits.all Char.isDigit then some (digitsValue digits) else none

namespace Json

/-- The part of a document that names lead to. -/
def part? : List String → Json → Option Json
  | [], value => some value
  | name :: rest, .object members => (Members.find? name members).bind (part? rest)
  | name :: rest, .array items =>
    ((placeOfName? name).bind fun place => items[place]?).bind (part? rest)
  | _ :: _, _ => none

/-- What is done at the place that a pointer leads to. -/
inductive Change where
  | add (value : Json)
  | replace (value : Json)
  | remove

/-- An object with a change to the member of a name. Only an added member may be new. -/
def Change.ofMember (name : String) (members : Members) : Change → Option Json
  | .add value => some (.object (Members.insert name value members))
  | .replace value =>
    (Members.find? name members).map fun _ => .object (Members.insert name value members)
  | .remove => (Members.find? name members).map fun _ => .object (Members.erase name members)

/-- A list with a change to the item at the place of a name. An item is added in front of the one
that is there, or at the end, where the name may also be a hyphen. -/
def Change.ofItem (name : String) (items : List Json) (change : Change) : Option Json :=
  match change, placeOfName? name with
  | .add value, some place =>
    if place ≤ items.length then some (.array (items.insertIdx place value)) else none
  | .add value, none => if name = "-" then some (.array (items ++ [value])) else none
  | .replace value, some place =>
    if place < items.length then some (.array (items.set place value)) else none
  | .remove, some place =>
    if place < items.length then some (.array (items.eraseIdx place)) else none
  | .replace _, none | .remove, none => none

/-- A document with a change at the place that names lead to. -/
def changed (change : Change) : List String → Json → Option Json
  | [], _ =>
    match change with
    | .add value | .replace value => some value
    | .remove => none
  | [name], .object members => change.ofMember name members
  | [name], .array items => change.ofItem name items
  | name :: rest, .object members => do
    let inner ← changed change rest (← Members.find? name members)
    return .object (Members.insert name inner members)
  | name :: rest, .array items => do
    let place ← placeOfName? name
    let inner ← changed change rest (← items[place]?)
    return .array (items.set place inner)
  | _ :: _, _ => none

/-- The member of a document under a name, if that is an object which has one. -/
def member? (name : String) (value : Json) : Option Json :=
  value.members?.bind (Members.find? name)

/-- The names of the pointer that a member of a step is. -/
def pointer? (name : String) (step : Json) : Option (List String) :=
  ((step.member? name).bind text?).bind pointerNames?

section

variable (same : Json → Json → Bool)

/-- A document after a step of a patch, if the step fits it, given when two values count as the
same. -/
def stepped (step target : Json) : Option Json := do
  let path ← step.pointer? "path"
  match ← (step.member? "op").bind text? with
  | "add" => target.changed (.add (← step.member? "value")) path
  | "replace" => target.changed (.replace (← step.member? "value")) path
  | "remove" => target.changed .remove path
  | "test" => if same (← target.part? path) (← step.member? "value") then some target else none
  | "copy" => target.changed (.add (← target.part? (← step.pointer? "from"))) path
  | "move" =>
    let source ← step.pointer? "from"
    -- Nothing is moved into itself.
    if source.isPrefixOf path && source != path then none
    else (← target.changed .remove source).changed (.add (← target.part? source)) path
  | _ => none

/-- A document after the steps of a patch, if each of them fits what those before it have made. -/
def patched (target : Json) : Json → Option Json
  | .array steps => steps.foldlM (fun value step => stepped same step value) target
  | _ => none

end

end Json

end ContentApi
