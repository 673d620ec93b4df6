import ContentApi.Json.Basic

/-! Documents as they stand in a text, up to the first place where the text is no document. -/

namespace ContentApi

/-- How a text breaks off: it ends too early, or something stands where it may not. -/
inductive Cut where
  | ended
  | malformed
  deriving DecidableEq

/-- What a reader finds where it expected something else. -/
inductive Unexpected where
  | null
  | flag (value : Bool)
  | number (value : Number)
  | text (value : String)
  | sequence
  | map
  deriving DecidableEq

/-- What follows the last item or member: the closing bracket, or a break. -/
inductive Stop where
  | closed
  /-- The break as a reader and as one who skips meets it, whether a comma stands before it, and
  the value that stands in place of a name. -/
  | cut (read skip : Cut) (afterComma : Bool) (found : Option Unexpected)
  /-- The break after a name, which is nothing if it holds half of a surrogate pair. -/
  | afterName (name : Option String) (next : Cut)

mutual

/-- A document as it stands in a text. -/
inductive Doc where
  | null
  | flag (value : Bool)
  /-- A number, which has no value if it is too great for a double. -/
  | number (value : Option Number)
  /-- A string, which has no value if it holds half of a surrogate pair. -/
  | text (value : Option String)
  | array (items : DocItems)
  | object (members : DocMembers)
  /-- The break as a reader and as one who skips meets it. -/
  | broken (read skip : Cut)

/-- The items of an array up to its end or the first break. -/
inductive DocItems where
  | nil (stop : Stop)
  | cons (item : Doc) (rest : DocItems)

/-- The members of an object, in the order of the text, up to its end or the first break. -/
inductive DocMembers where
  | nil (stop : Stop)
  | cons (name : Option String) (value : Doc) (rest : DocMembers)

end

mutual

/-- The document that a value is, with nothing left to break off. -/
def Doc.ofJson : Json → Doc
  | .null => .null
  | .flag value => .flag value
  | .number value => .number (some value)
  | .text value => .text (some value)
  | .array items => .array (DocItems.ofJson items)
  | .object members => .object (DocMembers.ofJson members)

/-- The items of an array that is a value. -/
def DocItems.ofJson : List Json → DocItems
  | [] => .nil .closed
  | item :: rest => .cons (Doc.ofJson item) (DocItems.ofJson rest)

/-- The members of an object that is a value. -/
def DocMembers.ofJson : Members → DocMembers
  | [] => .nil .closed
  | (name, value) :: rest => .cons (some name) (Doc.ofJson value) (DocMembers.ofJson rest)

end

/-- How many items an array has up to its end or the first break. -/
def DocItems.length : DocItems → Nat
  | .nil _ => 0
  | .cons _ rest => rest.length + 1

/-- A document read as what it is not, or the break met while finding out. -/
def Doc.unexpected : Doc → Except Cut Unexpected
  | .null => .ok .null
  | .flag value => .ok (.flag value)
  | .number (some value) => .ok (.number value)
  | .number none => .error .malformed
  | .text (some value) => .ok (.text value)
  | .text none => .error .malformed
  | .array _ => .ok .sequence
  | .object _ => .ok .map
  | .broken read _ => .error read

/-- How many more levels of arrays and objects may be entered, if there is a limit. -/
abbrev Room := Option Nat

/-- The room inside an array or object, which breaks where none is left. -/
def Room.enter : Room → Except Cut Room
  | none => .ok none
  | some n => if n ≤ 1 then .error .malformed else .ok (some (n - 1))

/-- The break met when items are read to their end. -/
def Stop.read : Stop → Except Cut Unit
  | .closed => .ok ()
  | .cut read .. => .error read
  | .afterName none _ => .error .malformed
  | .afterName (some _) next => .error next

/-- The break met when items are skipped to their end. -/
def Stop.skip : Stop → Except Cut Unit
  | .closed => .ok ()
  | .cut _ skip .. => .error skip
  | .afterName _ next => .error next

mutual

/-- Passes over a document without looking at its strings and numbers, at any depth. -/
def Doc.skip : Doc → Except Cut Unit
  | .array items => items.skip
  | .object members => members.skip
  | .broken _ skip => .error skip
  | _ => .ok ()

/-- Passes over items. -/
def DocItems.skip : DocItems → Except Cut Unit
  | .nil stop => stop.skip
  | .cons item rest => do
    item.skip
    rest.skip

/-- Passes over members. -/
def DocMembers.skip : DocMembers → Except Cut Unit
  | .nil stop => stop.skip
  | .cons _ value rest => do
    value.skip
    rest.skip

end

mutual

/-- The value that a document is, of whose repeated names the last is kept. -/
def Doc.toJson (room : Room) : Doc → Except Cut Json
  | .null => .ok .null
  | .flag value => .ok (.flag value)
  | .number (some value) => .ok (.number value)
  | .number none => .error .malformed
  | .text (some value) => .ok (.text value)
  | .text none => .error .malformed
  | .array items => do
    let inner ← room.enter
    return .array (← items.toJson inner)
  | .object members => do
    let inner ← room.enter
    return .object (← members.toJson inner [])
  | .broken read _ => .error read

/-- The values that items are. -/
def DocItems.toJson (room : Room) : DocItems → Except Cut (List Json)
  | .nil stop => do
    stop.read
    return []
  | .cons item rest => do
    let first ← item.toJson room
    return first :: (← rest.toJson room)

/-- The members gathered so far with those that are still to come. -/
def DocMembers.toJson (room : Room) (gathered : Members) : DocMembers → Except Cut Members
  | .nil stop => do
    stop.read
    return gathered
  | .cons none _ _ => .error .malformed
  | .cons (some name) value rest => do
    let read ← value.toJson room
    rest.toJson room (Members.insert name read gathered)

end

/-- Reads a document to its end as one whose type is not known yet. -/
def Doc.check (room : Room) (doc : Doc) : Except Cut Unit := do
  discard (doc.toJson room)

end ContentApi
