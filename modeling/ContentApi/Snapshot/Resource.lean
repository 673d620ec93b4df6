import ContentApi.Schema.Shape

/-! The kinds of objects that the service keeps and has addresses for. -/

namespace ContentApi

/-- A kind of object that the service keeps. -/
inductive Resource where
  | file
  | fileVersion
  | fileVersionRetention
  | folder
  | legalHold
  | legalHoldAssignment
  | retentionPolicy
  | retentionPolicyAssignment
  | task
  | taskAssignment
  | user
  | webLink
  deriving DecidableEq

namespace Resource

/-- Every kind of object. -/
def all : List Resource :=
  [.file, .fileVersion, .fileVersionRetention, .folder, .legalHold, .legalHoldAssignment,
    .retentionPolicy, .retentionPolicyAssignment, .task, .taskAssignment, .user, .webLink]

/-- The name by which the service calls a kind of object. -/
def typeName : Resource → String
  | .file => "file"
  | .fileVersion => "file_version"
  | .fileVersionRetention => "file_version_retention"
  | .folder => "folder"
  | .legalHold => "legal_hold"
  | .legalHoldAssignment => "legal_hold_assignment"
  | .retentionPolicy => "retention_policy"
  | .retentionPolicyAssignment => "retention_policy_assignment"
  | .task => "task"
  | .taskAssignment => "task_assignment"
  | .user => "user"
  | .webLink => "web_link"

/-- The kind of object of a name. -/
def ofTypeName? (name : String) : Option Resource :=
  all.find? (·.typeName == name)

/-- The kind of record that describes an object. -/
abbrev kind : Resource → Kind
  | .file => .file
  | .fileVersion => .fileVersion
  | .fileVersionRetention => .fileVersionRetention
  | .folder => .folder
  | .legalHold => .legalHold
  | .legalHoldAssignment => .legalHoldAssignment
  | .retentionPolicy => .retentionPolicy
  | .retentionPolicyAssignment => .retentionPolicyAssignment
  | .task => .task
  | .taskAssignment => .taskAssignment
  | .user => .user
  | .webLink => .webLink

end Resource

end ContentApi
