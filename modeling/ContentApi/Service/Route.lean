import ContentApi.Snapshot.Resource
import ContentApi.Url.Endpoint

/-! Routes: the endpoints of the service, and the endpoint of each kind of object. -/

namespace ContentApi

/-- A kind of object that is copied, moved, shared and described by metadata. -/
inductive Content where
  | file
  | folder
  deriving DecidableEq

/-- An endpoint of the service, where content of either kind has endpoints alike. -/
inductive Route where
  | content (k : Content)
  | copies (k : Content)
  | metadata (k : Content)
  | metadataInstance (k : Content)
  | fileBytes
  | fileVersions
  | fileVersion
  | currentVersion
  | fileTasks
  | folders
  | folderItems
  | webLinks
  | webLink
  | uploads
  | tasks
  | task
  | assignmentsOfTask
  | taskAssignments
  | taskAssignment
  | user
  | legalHolds
  | legalHold
  | assignmentsOfHold
  | holdAssignments
  | holdAssignment
  | retentionPolicies
  | retentionPolicy
  | assignmentsOfPolicy
  | policyAssignments
  | policyAssignment
  | versionRetentions
  | versionRetention
  | templates
  | schema
  | schemas
  deriving DecidableEq

/-- The kind of object that content is. -/
def Content.resource : Content → Resource
  | .file => .file
  | .folder => .folder

/-- The first segment of the paths of content. -/
def Content.collection : Content → String
  | .file => "files"
  | .folder => "folders"

namespace Route

/-- The path of a route, with a mark in the place of each argument. -/
def path : Route → String
  | .content k => k.collection ++ "/%s"
  | .copies k => k.collection ++ "/%s/copy"
  | .metadata k => k.collection ++ "/%s/metadata"
  | .metadataInstance k => k.collection ++ "/%s/metadata/%s/%s"
  | .fileBytes => "files/%s/content"
  | .fileVersions => "files/%s/versions"
  | .fileVersion => "files/%s/versions/%s"
  | .currentVersion => "files/%s/versions/current"
  | .fileTasks => "files/%s/tasks"
  | .folders => "folders"
  | .folderItems => "folders/%s/items/"
  | .webLinks => "web_links"
  | .webLink => "web_links/%s"
  | .uploads => "files/content"
  | .tasks => "tasks"
  | .task => "tasks/%s"
  | .assignmentsOfTask => "tasks/%s/assignments"
  | .taskAssignments => "task_assignments"
  | .taskAssignment => "task_assignments/%s"
  | .user => "users/%s"
  | .legalHolds => "legal_hold_policies"
  | .legalHold => "legal_hold_policies/%s"
  | .assignmentsOfHold => "legal_hold_policies/%s/assignments"
  | .holdAssignments => "legal_hold_policy_assignments"
  | .holdAssignment => "legal_hold_policy_assignments/%s"
  | .retentionPolicies => "retention_policies"
  | .retentionPolicy => "retention_policies/%s"
  | .assignmentsOfPolicy => "retention_policies/%s/assignments"
  | .policyAssignments => "retention_policy_assignments"
  | .policyAssignment => "retention_policy_assignments/%s"
  | .versionRetentions => "file_version_retentions"
  | .versionRetention => "file_version_retentions/%s"
  | .templates => "metadata_templates/%s"
  | .schema => "metadata_templates/%s/%s/schema"
  | .schemas => "metadata_templates/schema"

/-- How many arguments a route takes. -/
def arity : Route → Nat
  | .metadataInstance _ => 3
  | .fileVersion | .schema => 2
  | .folders | .webLinks | .uploads | .tasks | .taskAssignments | .legalHolds | .holdAssignments
  | .retentionPolicies | .policyAssignments | .versionRetentions | .schemas => 0
  | _ => 1

/-- The endpoint of a route. -/
def endpoint (route : Route) : Endpoint := ⟨route.path⟩

end Route

namespace Resource

/-- The route to an object. A version of a file has none of its own. -/
def route : (r : Resource) → r ≠ .fileVersion → Route
  | .file, _ => .content .file
  | .fileVersion, h => absurd rfl h
  | .fileVersionRetention, _ => .versionRetention
  | .folder, _ => .content .folder
  | .legalHold, _ => .legalHold
  | .legalHoldAssignment, _ => .holdAssignment
  | .retentionPolicy, _ => .retentionPolicy
  | .retentionPolicyAssignment, _ => .policyAssignment
  | .task, _ => .task
  | .taskAssignment, _ => .taskAssignment
  | .user, _ => .user
  | .webLink, _ => .webLink

/-- Whether members of an object may be changed. -/
def isEditable : Resource → Bool
  | .file | .folder | .legalHold | .retentionPolicy | .task | .taskAssignment => true
  | _ => false

/-- Whether an object may be deleted by its route alone. -/
def isDeletable : Resource → Bool
  | .file | .webLink | .legalHold | .legalHoldAssignment | .task | .taskAssignment => true
  | _ => false

theorem ne_fileVersion_of_isEditable {r : Resource} (h : r.isEditable = true) :
    r ≠ .fileVersion := by
  rintro rfl
  cases h

theorem ne_fileVersion_of_isDeletable {r : Resource} (h : r.isDeletable = true) :
    r ≠ .fileVersion := by
  rintro rfl
  cases h

end Resource

end ContentApi
