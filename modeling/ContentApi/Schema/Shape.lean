import ContentApi.Schema.Leaf

/-! The shapes of documents: which members each kind of record has, in the order of declaration. -/

namespace ContentApi

mutual

/-- The shape of a document. -/
inductive Shape where
  | leaf (l : Leaf)
  | record (k : Kind)
  /-- A file, a folder or a web link, told apart by its `type`. -/
  | item

/-- A kind of record. -/
inductive Kind where
  | user
  | reference
  | file
  | fileLock
  | fileVersion
  | folder
  | webLink
  /-- The members that files, folders and web links share. -/
  | itemFields
  | sharedLink
  | sharedLinkPermissions
  | legalHold
  | assignmentCounts
  | legalHoldAssignment
  | retentionPolicy
  | retentionPolicyAssignment
  | fileVersionRetention
  | task
  | taskAssignment
  | template
  | templateField
  | templateOption
  | apiError
  /-- A total and entries, inside other records. -/
  | collection (entry : Shape)
  /-- A page of a listing, with what leads to the next page. -/
  | page (entry : Shape)
  /-- A page of a listing, with its place in the whole. -/
  | offsetPage (entry : Shape)

end

/-- A member of a record. -/
inductive Member where
  /-- Absent if it is null or missing, and then left out. -/
  | optional (name : String) (shape : Shape)
  /-- Has a value of its own for when it is missing. -/
  | plain (name : String) (leaf : Leaf)
  /-- A list that is empty if it is missing. -/
  | entries (name : String) (shape : Shape)
  /-- A list that is empty if it is null or missing, and left out if it is empty. -/
  | omittable (name : String) (shape : Shape)
  /-- Must be there. -/
  | mandatory (name : String) (leaf : Leaf)

/-- The name of a member. -/
def Member.name : Member → String
  | .optional name _ | .plain name _ | .entries name _ | .omittable name _ | .mandatory name _ =>
    name

/-- Whether a member must be there. -/
def Member.isMandatory : Member → Bool
  | .mandatory _ _ => true
  | _ => false

/-- An optional text. -/
def textMember (name : String) : Member := .optional name (.leaf .text)

/-- An optional flag. -/
def flagMember (name : String) : Member := .optional name (.leaf .flag)

/-- An optional count. -/
def countMember (name : String) : Member := .optional name (.leaf .count)

/-- An instant, absent or not. -/
def instantMember (name : String) : Member := .plain name .instant

/-- An optional word. -/
def wordMember (name : String) (v : Vocabulary) : Member := .optional name (.leaf (.word v))

/-- An optional record. -/
def recordMember (name : String) (k : Kind) : Member := .optional name (.record k)

/-- The members that files, folders and web links share. -/
def itemMembers : List Member :=
  [textMember "id", textMember "sequence_id", textMember "etag", textMember "name",
    textMember "description", countMember "size", instantMember "created_at",
    instantMember "modified_at", instantMember "trashed_at", instantMember "purged_at",
    recordMember "created_by" .user, recordMember "modified_by" .user,
    recordMember "owned_by" .user, recordMember "parent" .folder,
    recordMember "path_collection" (.collection (.record .folder)), textMember "item_status",
    recordMember "shared_link" .sharedLink]

namespace Kind

/-- Whether a record begins with the members that files, folders and web links share. -/
def extendsItem : Kind → Bool
  | .file | .folder | .webLink => true
  | _ => false

/-- The members of a record apart from shared ones. -/
def ownMembers : Kind → List Member
  | .user => [textMember "id", textMember "name", textMember "login"]
  | .reference => [textMember "type", textMember "id"]
  | .file =>
    [textMember "sha1", textMember "version_number", countMember "comment_count",
      textMember "extension", flagMember "is_package", recordMember "file_version" .fileVersion,
      recordMember "lock" .fileLock, instantMember "content_created_at",
      instantMember "content_modified_at"]
  | .fileLock =>
    [textMember "id", recordMember "created_by" .user, instantMember "created_at",
      instantMember "expires_at", flagMember "is_download_prevented"]
  | .fileVersion =>
    [textMember "id", textMember "sha1", textMember "name", countMember "size",
      textMember "version_number", instantMember "created_at", instantMember "modified_at",
      instantMember "trashed_at", recordMember "modified_by" .user]
  | .folder =>
    [flagMember "has_collaborations", textMember "sync_state", flagMember "can_non_owners_invite",
      flagMember "is_externally_owned", .plain "permissions" .grants]
  | .webLink => [textMember "url"]
  | .itemFields => itemMembers
  | .sharedLink =>
    [textMember "url", textMember "download_url", textMember "vanity_url",
      flagMember "is_password_enabled", instantMember "unshared_at", countMember "download_count",
      countMember "preview_count", wordMember "access" .linkAccess,
      wordMember "effective_access" .linkAccess, recordMember "permissions" .sharedLinkPermissions]
  | .sharedLinkPermissions => [.plain "can_download" .flag, .plain "can_preview" .flag]
  | .legalHold =>
    [textMember "id", textMember "policy_name", textMember "description",
      wordMember "status" .holdStatus, recordMember "assignment_counts" .assignmentCounts,
      recordMember "created_by" .user, instantMember "created_at", instantMember "modified_at",
      instantMember "deleted_at", instantMember "filter_started_at",
      instantMember "filter_ended_at", textMember "release_notes"]
  | .assignmentCounts =>
    [.plain "user" .count, .plain "folder" .count, .plain "file" .count,
      .plain "file_version" .count]
  | .legalHoldAssignment =>
    [textMember "id", recordMember "legal_hold_policy" .legalHold,
      recordMember "assigned_to" .reference, recordMember "assigned_by" .user,
      instantMember "assigned_at", instantMember "deleted_at"]
  | .retentionPolicy =>
    [textMember "id", textMember "policy_name", wordMember "policy_type" .retentionType,
      .plain "retention_length" .days, wordMember "disposition_action" .disposition,
      wordMember "status" .retentionStatus, recordMember "created_by" .user,
      instantMember "created_at", instantMember "modified_at"]
  | .retentionPolicyAssignment =>
    [textMember "id", recordMember "retention_policy" .retentionPolicy,
      recordMember "assigned_to" .reference, recordMember "assigned_by" .user,
      instantMember "assigned_at"]
  | .fileVersionRetention =>
    [textMember "id", recordMember "file_version" .fileVersion, recordMember "file" .file,
      instantMember "applied_at", instantMember "disposition_at",
      recordMember "winning_retention_policy" .retentionPolicy]
  | .task =>
    [textMember "id", recordMember "item" .file, instantMember "due_at",
      wordMember "action" .taskAction, textMember "message",
      recordMember "task_assignment_collection" (.collection (.record .taskAssignment)),
      flagMember "is_completed", recordMember "created_by" .user, instantMember "created_at"]
  | .taskAssignment =>
    [textMember "id", .optional "item" .item, recordMember "assigned_to" .user,
      textMember "message", instantMember "completed_at", instantMember "assigned_at",
      instantMember "reminded_at", wordMember "resolution_state" .resolution,
      recordMember "assigned_by" .user]
  | .template =>
    [textMember "id", textMember "templateKey", textMember "scope", textMember "displayName",
      flagMember "hidden", .entries "fields" (.record .templateField)]
  | .templateField =>
    [textMember "id", textMember "type", textMember "key", textMember "displayName",
      flagMember "hidden", textMember "description",
      .omittable "options" (.record .templateOption)]
  | .templateOption => [.mandatory "key" .text]
  | .apiError => [textMember "code", textMember "message", textMember "request_id"]
  | .collection entry => [countMember "total_count", .entries "entries" entry]
  | .page entry =>
    [.entries "entries" entry, countMember "total_count", .plain "next_marker" .untyped]
  | .offsetPage entry =>
    [.entries "entries" entry, .plain "total_count" .count, .plain "offset" .count,
      .plain "limit" .count]

/-- The members of a record, shared ones first. -/
def members (k : Kind) : List Member :=
  if k.extendsItem then itemMembers ++ k.ownMembers else k.ownMembers

/-- The name by which a fault calls a record. -/
def structName : Kind → String
  | .user => "UserInfo"
  | .reference => "ResourceRef"
  | .file => "FileInfo"
  | .fileLock => "FileLock"
  | .fileVersion => "FileVersionInfo"
  | .folder => "FolderInfo"
  | .webLink => "WebLinkInfo"
  | .itemFields => "ItemFields"
  | .sharedLink => "SharedLink"
  | .sharedLinkPermissions => "SharedLinkPermissions"
  | .legalHold => "LegalHoldInfo"
  | .assignmentCounts => "AssignmentCounts"
  | .legalHoldAssignment => "LegalHoldAssignmentInfo"
  | .retentionPolicy => "RetentionPolicyInfo"
  | .retentionPolicyAssignment => "RetentionPolicyAssignmentInfo"
  | .fileVersionRetention => "FileVersionRetentionInfo"
  | .task => "TaskInfo"
  | .taskAssignment => "TaskAssignmentInfo"
  | .template => "MetadataTemplate"
  | .templateField => "MetadataTemplateField"
  | .templateOption => "TemplateOption"
  | .apiError => "ApiErrorBody"
  | .collection _ => "Collection"
  | .page _ => "Page"
  | .offsetPage _ => "OffsetPage"

/-- Whether a list of values stands for a record only if it has a value for every member. -/
def needsWholeRow : Kind → Bool
  | .apiError | .templateOption => true
  | _ => false

end Kind

/-- A kind of item that a folder holds. -/
inductive ItemKind where
  | file
  | folder
  | webLink
  deriving DecidableEq

namespace ItemKind

/-- The kind of record that describes an item. -/
def kind : ItemKind → Kind
  | .file => .file
  | .folder => .folder
  | .webLink => .webLink

/-- The `type` of an item. -/
def tag : ItemKind → String
  | .file => "file"
  | .folder => "folder"
  | .webLink => "web_link"

/-- The kind of item of a `type`. -/
def ofTag? (tag : String) : Option ItemKind :=
  [file, folder, webLink].find? (·.tag == tag)

end ItemKind

/-- The place of a member in a list of members. -/
inductive Place : Member → List Member → Type where
  | here {m : Member} {ms : List Member} : Place m (m :: ms)
  | there {m n : Member} {ms : List Member} (p : Place m ms) : Place m (n :: ms)

/-- The place with a given index, where the member is known to be. -/
def Place.ofIndex {m : Member} :
    (ms : List Member) → (index : Nat) → ms[index]? = some m → Place m ms
  | _ :: _, 0, h => (Option.some.inj h) ▸ .here
  | _ :: ms, index + 1, h => .there (ofIndex ms index h)

/-- A member together with its place. -/
structure Located (ms : List Member) where
  /-- The member. -/
  member : Member
  /-- Its place. -/
  place : Place member ms

/-- The first member of a name. -/
def locate? (name : String) : (ms : List Member) → Option (Located ms)
  | [] => none
  | m :: ms =>
    if m.name = name then some ⟨m, .here⟩
    else (locate? name ms).map fun found => ⟨found.member, .there found.place⟩

end ContentApi
