import ContentApi.Schema.View
import ContentApi.Snapshot.Basic

/-! Changes to snapshots, each of which is also queued to be sent. -/

namespace ContentApi

section Link

/-- The place of the expiry among the members of a shared link. -/
def linkExpiryPlace : Place (instantMember "unshared_at") Kind.sharedLink.members :=
  .ofIndex _ 4 rfl

/-- The place of the access among the members of a shared link. -/
def linkAccessPlace : Place (wordMember "access" .linkAccess) Kind.sharedLink.members :=
  .ofIndex _ 7 rfl

/-- The place of the permissions among the members of a shared link. -/
def linkPermissionsPlace :
    Place (recordMember "permissions" .sharedLinkPermissions) Kind.sharedLink.members :=
  .ofIndex _ 9 rfl

variable (link : Record .sharedLink)

/-- When a shared link expires. -/
def linkExpiry? : Option Timestamp :=
  (link.get linkExpiryPlace).value

/-- Who may open a shared link. -/
def linkAccess? : Option (Word .linkAccess) :=
  (link.get linkAccessPlace).value?.map Datum.value

/-- What those who open a shared link may do. -/
def linkPermissions? : Option (Datum (.record .sharedLinkPermissions)) :=
  (link.get linkPermissionsPlace).value?

/-- The settings of a shared link that a client may choose, as far as they are known. -/
def linkSettings : List (String × Option Json) :=
  [("access", (linkAccess? link).map fun access => .text access.requestText),
    ("unshared_at", (linkExpiry? link).map fun expiry => .text expiry.format),
    ("permissions", (linkPermissions? link).map Datum.toJson)]

/-- A shared link as it is sent. -/
def linkRequest : Json := Json.ofPresent (linkSettings link)

end Link

/-- A change to a member of a snapshot. -/
inductive Edit : Resource → Type where
  | fileName (name : String) : Edit .file
  | fileDescription (text : String) : Edit .file
  | fileLink (link : Record .sharedLink) : Edit .file
  | folderName (name : String) : Edit .folder
  | folderDescription (text : String) : Edit .folder
  | holdName (name : String) : Edit .legalHold
  | holdDescription (text : String) : Edit .legalHold
  | holdReleaseNotes (text : String) : Edit .legalHold
  | policyName (name : String) : Edit .retentionPolicy
  | policyDisposition (action : Word .disposition) : Edit .retentionPolicy
  | policyStatus (status : Word .retentionStatus) : Edit .retentionPolicy
  | taskMessage (text : String) : Edit .task
  | taskDue (due : Timestamp) : Edit .task
  | taskAction (action : Word .taskAction) : Edit .task
  | assignmentMessage (text : String) : Edit .taskAssignment
  | assignmentResolution (state : Word .resolution) : Edit .taskAssignment

namespace Edit

/-- The member that a change sets. -/
def member : {r : Resource} → Edit r → Member
  | _, .fileName _ | _, .folderName _ => textMember "name"
  | _, .fileDescription _ | _, .folderDescription _ | _, .holdDescription _ =>
    textMember "description"
  | _, .fileLink _ => recordMember "shared_link" .sharedLink
  | _, .holdName _ | _, .policyName _ => textMember "policy_name"
  | _, .holdReleaseNotes _ => textMember "release_notes"
  | _, .policyDisposition _ => wordMember "disposition_action" .disposition
  | _, .policyStatus _ => wordMember "status" .retentionStatus
  | _, .taskMessage _ | _, .assignmentMessage _ => textMember "message"
  | _, .taskDue _ => instantMember "due_at"
  | _, .taskAction _ => wordMember "action" .taskAction
  | _, .assignmentResolution _ => wordMember "resolution_state" .resolution

/-- What the snapshot holds for the member after the change. -/
def slot : {r : Resource} → (e : Edit r) → Slot e.member
  | _, .fileName s | _, .folderName s | _, .fileDescription s | _, .folderDescription s
  | _, .holdDescription s | _, .holdName s | _, .policyName s | _, .holdReleaseNotes s
  | _, .taskMessage s | _, .assignmentMessage s => .given (.leaf (l := .text) s)
  | _, .fileLink link => .given (.record link)
  | _, .policyDisposition w => .given (.leaf (l := .word _) w)
  | _, .policyStatus w => .given (.leaf (l := .word _) w)
  | _, .taskAction w => .given (.leaf (l := .word _) w)
  | _, .assignmentResolution w => .given (.leaf (l := .word _) w)
  | _, .taskDue t => .plain (l := .instant) (some t)

/-- The place of the member among those of the snapshot. -/
def place : {r : Resource} → (e : Edit r) → Place e.member r.kind.members
  | _, .fileName _ => .ofIndex _ 3 rfl
  | _, .fileDescription _ => .ofIndex _ 4 rfl
  | _, .fileLink _ => .ofIndex _ 16 rfl
  | _, .folderName _ => .ofIndex _ 3 rfl
  | _, .folderDescription _ => .ofIndex _ 4 rfl
  | _, .holdName _ => .ofIndex _ 1 rfl
  | _, .holdDescription _ => .ofIndex _ 2 rfl
  | _, .holdReleaseNotes _ => .ofIndex _ 11 rfl
  | _, .policyName _ => .ofIndex _ 1 rfl
  | _, .policyDisposition _ => .ofIndex _ 4 rfl
  | _, .policyStatus _ => .ofIndex _ 5 rfl
  | _, .taskMessage _ => .ofIndex _ 4 rfl
  | _, .taskDue _ => .ofIndex _ 2 rfl
  | _, .taskAction _ => .ofIndex _ 3 rfl
  | _, .assignmentMessage _ => .ofIndex _ 3 rfl
  | _, .assignmentResolution _ => .ofIndex _ 7 rfl

/-- The name under which a change is queued. -/
def key : {r : Resource} → Edit r → String
  | _, .fileName _ | _, .folderName _ => "name"
  | _, .fileDescription _ | _, .folderDescription _ | _, .holdDescription _ => "description"
  | _, .fileLink _ => "shared_link"
  | _, .holdName _ | _, .policyName _ => "policy_name"
  | _, .holdReleaseNotes _ => "release_notes"
  | _, .policyDisposition _ => "disposition_action"
  | _, .policyStatus _ => "status"
  | _, .taskMessage _ | _, .assignmentMessage _ => "message"
  | _, .taskDue _ => "due_at"
  | _, .taskAction _ => "action"
  | _, .assignmentResolution _ => "resolution_state"

/-- The value that is queued for a change, written apart from the member that the change sets. -/
def wire : {r : Resource} → Edit r → Json
  | _, .fileName text | _, .folderName text | _, .fileDescription text
  | _, .folderDescription text | _, .holdName text | _, .holdDescription text
  | _, .holdReleaseNotes text | _, .policyName text | _, .taskMessage text
  | _, .assignmentMessage text => .text text
  | _, .fileLink link => linkRequest link
  | _, .policyDisposition action => .text action.requestText
  | _, .policyStatus status => .text status.requestText
  | _, .taskDue due => .text due.format
  | _, .taskAction action => .text action.requestText
  | _, .assignmentResolution state => .text state.requestText

end Edit

/-- Changes a member of a snapshot and queues the change. -/
def Snapshot.edit {r : Resource} (s : Snapshot r) (e : Edit r) : Snapshot r :=
  Snapshot.addPending { s with fields := s.fields.set e.place e.slot } e.key e.wire

end ContentApi
