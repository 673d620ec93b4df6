import ContentApi.Schema.Datum

/-! Typed documents as untyped ones. -/

namespace ContentApi

mutual

/-- The untyped document of a typed one, with the members of its objects arranged by a rule. -/
def Datum.write (arrange : Members → Members) : {s : Shape} → Datum s → Json
  | _, .leaf (l := l) value => (l.write value).getD .null
  | _, .record fields => .object (arrange (fields.write arrange))
  | _, .item k fields => .object (arrange (("type", .text k.tag) :: fields.write arrange))

/-- The untyped documents of typed ones. -/
def Items.write (arrange : Members → Members) : {s : Shape} → Items s → List Json
  | _, .nil => []
  | _, .cons first rest => first.write arrange :: rest.write arrange

/-- The value that a member is sent with, or nothing if it is left out. -/
def Slot.write (arrange : Members → Members) : {m : Member} → Slot m → Option Json
  | _, .absent => none
  | _, .given value => some (value.write arrange)
  | _, .plain (l := l) value => l.write value
  | _, .entries items => some (.array (items.write arrange))
  | _, .omittable items =>
    match items.write arrange with
    | [] => none
    | written => some (.array written)
  | _, .mandatory (l := l) value => l.write value

/-- The members that a record is sent with, in the order of declaration. -/
def Fields.write (arrange : Members → Members) : {ms : List Member} → Fields ms → Members
  | _, .nil => []
  | m :: _, .cons slot rest =>
    match slot.write arrange with
    | some value => (m.name, value) :: rest.write arrange
    | none => rest.write arrange

end

/-- The value of a typed document, whose members are in the order of their names. -/
def Datum.toJson {s : Shape} (d : Datum s) : Json :=
  d.write Members.sorted

/-- A typed document for display, whose members are in the order of declaration. -/
def Datum.toDisplay {s : Shape} (d : Datum s) : Json :=
  d.write id

end ContentApi
