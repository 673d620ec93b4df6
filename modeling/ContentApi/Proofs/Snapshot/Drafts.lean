import ContentApi.Proofs.Snapshot.Update
import ContentApi.Schema.View

/-! Typed documents with the changes to every object inside them, none of which is sent. -/

namespace ContentApi

/-- A document that a record holds for a member, alone or as an entry of a list. -/
inductive Slot.Part : {m : Member} → {s : Shape} → Slot m → Datum s → Type where
  | given {name : String} {s : Shape} (value : Datum s) : Slot.Part (@Slot.given name s value) value
  | entry {name : String} {s : Shape} (items : Items s) (index : Fin items.toList.length) :
    Slot.Part (@Slot.entries name s items) (items.toList.get index)
  | omittable {name : String} {s : Shape} (items : Items s) (index : Fin items.toList.length) :
    Slot.Part (@Slot.omittable name s items) (items.toList.get index)

/-- An object in a typed document, or the document itself, with which its changes are kept. -/
inductive Datum.Site : {s : Shape} → Datum s → Type where
  | object {r : Resource} (fields : Record r.kind) : Datum.Site (.record fields)
  | item {k : ItemKind} (fields : Fields k.kind.members) : Datum.Site (.item k fields)
  | inRecord {k : Kind} {fields : Fields k.members} {m : Member} {s : Shape} {d : Datum s}
    (place : Place m k.members) (part : Slot.Part (fields.get place) d) (site : Datum.Site d) :
    Datum.Site (.record fields)
  | inItem {k : ItemKind} {fields : Fields k.kind.members} {m : Member} {s : Shape} {d : Datum s}
    (place : Place m k.kind.members) (part : Slot.Part (fields.get place) d)
    (site : Datum.Site d) : Datum.Site (.item k fields)

/-- A typed document with the changes to every object in it. -/
structure Draft (s : Shape) where
  /-- What is known. -/
  known : Datum s
  /-- The changed members of each object by name. -/
  pending : known.Site → Members

namespace Snapshot

variable {r : Resource}

/-- What is left of a snapshot when it is sent. -/
def settled (s : Snapshot r) : Snapshot r := ⟨s.fields.settled, []⟩

/-- A snapshot is read back from what it is sent as, to the second and without its changes. -/
theorem ofJson_toJson (s : Snapshot r) : ofJson r s.toJson = .ok s.settled := by
  -- The changes are not sent, so what is read back has only the known members.
  have read := s.datum.read_write r.isTyped_kind (show Mode.value.room = none from rfl)
  rw [ofJson, Datum.ofJson, toJson, Datum.toJson, read]
  rfl

end Snapshot

namespace Draft

variable {s : Shape} {r : Resource}

/-- A typed document in which nothing was changed. -/
def unchanged (d : Datum s) : Draft s := ⟨d, fun _ => []⟩

/-- The value of a document, without any changes. -/
def toJson (x : Draft s) : Json := x.known.toJson

/-- The document that a value is, with no changes. -/
def ofJson (s : Shape) (value : Json) : Except Fault (Draft s) :=
  (Datum.ofJson s value).map unchanged

/-- What is left of a document when it is sent: every instant to the second, a leap second as one,
and no changes to any object. -/
def settled (x : Draft s) : Draft s := unchanged x.known.settled

/-- A typed document is read back from what it is sent as, to the second and without its changes. -/
theorem ofJson_toJson (typed : s.isTyped = true) (x : Draft s) :
    ofJson s x.toJson = .ok x.settled := by
  rw [ofJson, Datum.ofJson, toJson, Datum.toJson, x.known.read_write typed rfl]
  rfl

/-- The snapshot that a document about an object is, the changes to other objects left aside. -/
def snapshot : Draft (.record r.kind) → Snapshot r
  | ⟨.record fields, pending⟩ => ⟨fields, pending (.object fields)⟩

/-- A snapshot is read as the document about its object is. -/
theorem snapshot_ofJson (value : Json) :
    (ofJson (.record r.kind) value).map snapshot = Snapshot.ofJson r value := by
  rw [ofJson, Snapshot.ofJson]
  cases Datum.ofJson (.record r.kind) value with
  | error fault => rfl
  -- The document of a kind is a record, of which the snapshot has the members.
  | ok d =>
    cases d
    rfl

/-- A snapshot is sent as the document about its object is. -/
theorem toJson_snapshot (x : Draft (.record r.kind)) : x.snapshot.toJson = x.toJson := by
  obtain ⟨⟨fields⟩, pending⟩ := x
  rfl

/-- Reading undoes writing. A typed document is read back from what it is sent as, with its instants
to the second and without the changes to any object in it, and then it is sent the same way. So is
the snapshot of any kind of object. To the second an instant is its second, and a leap second is
that leap second; only where a second more is counted in the nanoseconds though no minute ends, it
is the next second. -/
theorem reading_undoes_writing :
    (∀ s : Shape, s.isTyped = true → ∀ x : Draft s,
      ofJson s x.toJson = .ok x.settled ∧ (ofJson s x.toJson).map toJson = .ok x.toJson) ∧
    (∀ (r : Resource) (x : Snapshot r), Snapshot.ofJson r x.toJson = .ok x.settled ∧
      (Snapshot.ofJson r x.toJson).map Snapshot.toJson = .ok x.toJson) ∧
    ∀ t : Timestamp,
      (¬ t.IsOverrun → t.settled.seconds = t.seconds ∧
        t.settled.nanos = if t.IsLeap then 1000000000 else 0) ∧
      (t.IsOverrun → t.settled.seconds = t.seconds + 1 ∧ t.settled.nanos = 0) := by
  refine ⟨fun s typed x => ?_, fun r x => ?_, fun t => ⟨fun within => ⟨if_neg within, rfl⟩,
    Timestamp.settled_of_isOverrun⟩⟩
  -- Once it is known what is read back, sending it again sends settled instants, which stay.
  · have read := ofJson_toJson typed x
    rw [read]
    exact ⟨rfl, congrArg Except.ok x.known.write_settled⟩
  · have read := x.ofJson_toJson
    rw [read]
    exact ⟨rfl, congrArg Except.ok x.datum.write_settled⟩

example : ∀ s ∈ [Shape.item, .record .sharedLink, .record .template, .record .templateField],
    s.isTyped = true := by decide

example (s : Shape) : (Shape.record (.collection s)).isTyped = s.isTyped := rfl

/-- The middle of the leap second at the end of the year 2016. -/
def leapSecond : Timestamp := ⟨1483228799, 1500000000, by decide⟩

/-- A folder made in a leap second, which may be renamed and shared, inside another one. -/
def innerFolder : Record .folder :=
  -- The members are when it was made, the folder around it and what is permitted.
  ((((Fields.blank _).set (.ofIndex _ 6 rfl) (.plain (l := .instant) (some leapSecond))).set
    (.ofIndex _ 13 rfl) (.given (.record (k := .folder) ((Fields.blank _).set (.ofIndex _ 3 rfl)
      (.given (.leaf (l := .text) "top")))))).set
    (.ofIndex _ 21 rfl) (.plain (l := .grants) (some ⟨fun p => p = .canRename ∨ p = .canShare⟩)))

/-- A collection of one folder in which each folder was renamed. -/
def renamedFolders : Draft (.record (.collection .item)) where
  -- The collection tells how many entries there are and lists the one.
  known := .record (.cons (.given (.leaf (l := .count) 1)) (.cons
    (.entries (.cons (.item .folder innerFolder) .nil)) .nil))
  pending := fun _ => [("name", .text "new")]

/-- The collection is read back with the leap second, and without the changes to either folder. -/
theorem ofJson_renamedFolders :
    ofJson (.record (.collection .item)) renamedFolders.toJson = .ok renamedFolders.settled ∧
      (ofJson (.record (.collection .item)) renamedFolders.toJson).map toJson =
        .ok renamedFolders.toJson ∧
      leapSecond.settled.nanos = 1000000000 :=
  -- The collection is of a typed shape, so that the general statement is about it.
  have read := reading_undoes_writing.1 (.record (.collection .item)) rfl renamedFolders
  ⟨read.1, read.2, rfl⟩

/-- A lock that was put on a file at an instant that overruns its second. -/
def overrunLock : Draft (.record .fileLock) :=
  -- The third member of a lock is when it was put on.
  unchanged (.record ((Fields.blank _).set (.ofIndex _ 2 rfl)
    (.plain (l := .instant) (some Timestamp.overrunInstant))))

/-- The lock is read back as put on in another second. -/
theorem ofJson_overrunLock : ∃ back, ofJson (.record .fileLock) overrunLock.toJson = .ok back ∧
    (overrunLock.known.fields.instant? "created_at").map Timestamp.seconds = some 86164 ∧
    (back.known.fields.instant? "created_at").map Timestamp.seconds = some 86165 :=
  -- The lock is read back settled, and the two seconds are computed.
  ⟨overrunLock.settled, ofJson_toJson rfl _, by cbv, by cbv⟩

end Draft

end ContentApi
