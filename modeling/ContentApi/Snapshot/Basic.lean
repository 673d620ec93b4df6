import ContentApi.Json.Overlay
import ContentApi.Schema.Reader
import ContentApi.Schema.Writer
import ContentApi.Snapshot.Resource

/-! Snapshots: what is known of an object, and which members were changed since. -/

namespace ContentApi

/-- What is known of an object, with the changed members that have not been sent yet. -/
structure Snapshot (r : Resource) where
  /-- The members that are known. -/
  fields : Record r.kind
  /-- The changed members by name, with the values to send. -/
  pending : Members

namespace Snapshot

variable {r : Resource}

/-- The snapshot of an object of which nothing is known. -/
def blank (r : Resource) : Snapshot r := ⟨Fields.blank _, []⟩

/-- The typed document of a snapshot, without its changes. -/
def datum (s : Snapshot r) : Datum (.record r.kind) := .record s.fields

/-- The snapshot that a typed document is, with no changes. -/
def ofDatum : Datum (.record r.kind) → Snapshot r
  | .record fields => ⟨fields, []⟩

/-- The snapshot that a value is. -/
def ofJson (r : Resource) (value : Json) : Except Fault (Snapshot r) :=
  (Datum.ofJson (.record r.kind) value).map ofDatum

/-- The snapshot that a text is. -/
def ofText (r : Resource) (text : String) : Except Fault (Snapshot r) :=
  (Datum.ofText (.record r.kind) text).map ofDatum

/-- The value of a snapshot, without its changes. -/
def toJson (s : Snapshot r) : Json := s.datum.toJson

/-- Overlays an answer on a snapshot and drops its changes. A fault leaves the snapshot alone. -/
def update (s : Snapshot r) (answer : Json) : Except Fault (Snapshot r) :=
  ofJson r (s.toJson.overlay answer)

/-- Adds a changed member. -/
def addPending (s : Snapshot r) (name : String) (value : Json) : Snapshot r :=
  { s with pending := Members.insert name value s.pending }

/-- Forgets which members were changed. -/
def clearPending (s : Snapshot r) : Snapshot r := { s with pending := [] }

/-- The changed members as one object, if there are any. -/
def pendingChanges (s : Snapshot r) : Option Json :=
  if s.pending.isEmpty then none else some (.object s.pending)

/-- Whether two snapshots have the same members, to the nanosecond, and the same changes. -/
def same (a b : Snapshot r) : Bool :=
  a.fields.same b.fields && decide (a.pending = b.pending)

end Snapshot

end ContentApi
