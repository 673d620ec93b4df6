import ContentApi.Schema.Writer

/-! What typed documents hold, by the names of their members. -/

namespace ContentApi

/-- What a record holds for a member of a name. -/
structure NamedSlot where
  /-- The member. -/
  member : Member
  /-- What the record holds for it. -/
  slot : Slot member

namespace Slot

/-- The text of a member that is one. -/
def text? : {m : Member} → Slot m → Option String
  | .optional _ (.leaf .text), .given (.leaf s) => some s
  | _, _ => none

/-- The flag of a member that is one. -/
def flag? : {m : Member} → Slot m → Option Bool
  | .optional _ (.leaf .flag), .given (.leaf b) => some b
  | .plain _ .flag, .plain b => some b
  | _, _ => none

/-- The count of a member that is one. -/
def count? : {m : Member} → Slot m → Option UInt64
  | .optional _ (.leaf .count), .given (.leaf n) => some n
  | .plain _ .count, .plain n => some n
  | _, _ => none

/-- The instant of a member that is one. -/
def instant? : {m : Member} → Slot m → Option Timestamp
  | .plain _ .instant, .plain t => t
  | _, _ => none

end Slot

/-- What a record holds for the first member of a name. -/
def Fields.find? (name : String) : {ms : List Member} → Fields ms → Option NamedSlot
  | _, .nil => none
  | m :: _, .cons slot rest => if m.name = name then some ⟨m, slot⟩ else rest.find? name

/-- The text that a record holds under a name. -/
def Fields.text? {ms : List Member} (fields : Fields ms) (name : String) : Option String :=
  (fields.find? name).bind fun found => found.slot.text?

/-- The instant that a record holds under a name. -/
def Fields.instant? {ms : List Member} (fields : Fields ms) (name : String) : Option Timestamp :=
  (fields.find? name).bind fun found => found.slot.instant?

/-- The count that a record holds under a name. -/
def Fields.count? {ms : List Member} (fields : Fields ms) (name : String) : Option UInt64 :=
  (fields.find? name).bind fun found => found.slot.count?

/-- The flag that a record holds under a name. -/
def Fields.flag? {ms : List Member} (fields : Fields ms) (name : String) : Option Bool :=
  (fields.find? name).bind fun found => found.slot.flag?

/-- The record that a document of its shape is. -/
def Datum.fields {k : Kind} : Datum (.record k) → Record k
  | .record fields => fields

/-- The value of a leaf. -/
def Datum.value {l : Leaf} : Datum (.leaf l) → l.Carrier
  | .leaf value => value

/-- The kind of an item. -/
def Datum.itemKind : Datum .item → ItemKind
  | .item k _ => k

/-- The members of an item. -/
def Datum.itemFields : (d : Datum .item) → Record d.itemKind.kind
  | .item _ fields => fields

namespace Slot

/-- The document that a record holds for an optional member. -/
def value? {name : String} {s : Shape} : Slot (.optional name s) → Option (Datum s)
  | .absent => none
  | .given value => some value

/-- The value that a record holds for a member that always has one. -/
def value {name : String} {l : Leaf} : Slot (.plain name l) → l.Carrier
  | .plain value => value

/-- The documents of a list. -/
def items {name : String} {s : Shape} : Slot (.entries name s) → List (Datum s)
  | .entries items => items.toList

/-- The documents of a list that is left out if it is empty. -/
def omittableItems {name : String} {s : Shape} : Slot (.omittable name s) → List (Datum s)
  | .omittable items => items.toList

/-- The value that must be there. -/
def mandatoryValue {name : String} {l : Leaf} : Slot (.mandatory name l) → l.Carrier
  | .mandatory value => value

end Slot

/-- The entries of a collection. -/
def collectionEntries {s : Shape} (c : Record (.collection s)) : List (Datum s) :=
  (c.get (.ofIndex _ 1 rfl)).items

end ContentApi
