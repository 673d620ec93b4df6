import ContentApi.Snapshot.Edit

/-! What snapshots say beyond their members. -/

namespace ContentApi

/-- Whether a snapshot of a folder grants a permission. Of an unknown set nothing is granted. -/
def Snapshot.grants (s : Snapshot .folder) (p : FolderPermission) : Bool :=
  match (s.fields.get (m := .plain "permissions" .grants) (.ofIndex _ 21 rfl)).value with
  | some granted => granted.allows p
  | none => false

/-- The assignments of a task that its snapshot lists. -/
def Snapshot.taskAssignments (s : Snapshot .task) : List (Record .taskAssignment) :=
  match (s.fields.get (.ofIndex _ 5 rfl)).value? with
  | some collection => (collectionEntries collection.fields).map Datum.fields
  | none => []

/-- When a task is due. -/
def Snapshot.dueAt (s : Snapshot .task) : Option Timestamp := s.fields.instant? "due_at"

/-- The item that a task was assigned for. -/
def Snapshot.assignedItem? (s : Snapshot .taskAssignment) : Option (Datum .item) :=
  (s.fields.get (.ofIndex _ 1 rfl)).value?

/-- What a legal hold is assigned to. -/
def Snapshot.heldObject? (s : Snapshot .legalHoldAssignment) : Option (Record .reference) :=
  (s.fields.get (.ofIndex _ 2 rfl)).value?.map Datum.fields

/-- What a retention policy is assigned to. -/
def Snapshot.retainedObject? (s : Snapshot .retentionPolicyAssignment) :
    Option (Record .reference) :=
  (s.fields.get (.ofIndex _ 2 rfl)).value?.map Datum.fields

end ContentApi
