/-! What a user may do with a folder. -/

namespace ContentApi

/-- Something a user may do with a folder. -/
inductive FolderPermission where
  | canDownload
  | canUpload
  | canRename
  | canDelete
  | canShare
  | canInviteCollaborator
  | canSetShareAccess
  deriving DecidableEq

namespace FolderPermission

/-- Every permission, in the order in which they are listed. -/
def all : List FolderPermission :=
  [.canDownload, .canUpload, .canRename, .canDelete, .canShare, .canInviteCollaborator,
    .canSetShareAccess]

/-- The name under which a permission is sent. -/
def name : FolderPermission → String
  | .canDownload => "can_download"
  | .canUpload => "can_upload"
  | .canRename => "can_rename"
  | .canDelete => "can_delete"
  | .canShare => "can_share"
  | .canInviteCollaborator => "can_invite_collaborator"
  | .canSetShareAccess => "can_set_share_access"

/-- The permission of a name. -/
def ofName? (name : String) : Option FolderPermission :=
  all.find? (·.name == name)

theorem mem_all (p : FolderPermission) : p ∈ all := by
  cases p <;> decide

end FolderPermission

/-- A set of permissions. -/
structure Grants where
  /-- Whether a permission belongs to the set. -/
  allows : FolderPermission → Bool

namespace Grants

/-- The set without permissions. -/
def none : Grants := ⟨fun _ => false⟩

/-- A set with one permission put in or taken out. -/
def set (g : Grants) (p : FolderPermission) (granted : Bool) : Grants :=
  ⟨fun q => if q = p then granted else g.allows q⟩

/-- The permissions of a set in their order. -/
def toList (g : Grants) : List FolderPermission :=
  FolderPermission.all.filter g.allows

theorem ext {a b : Grants} (h : ∀ p, a.allows p = b.allows p) : a = b := by
  cases a
  cases b
  congr
  exact funext h

/-- Two sets are equal if they agree on every permission. -/
theorem eq_iff_agree (a b : Grants) :
    a = b ↔ ∀ p ∈ FolderPermission.all, a.allows p = b.allows p :=
  ⟨fun h _ _ => h ▸ rfl, fun h => ext fun p => h p p.mem_all⟩

instance : DecidableEq Grants := fun a b =>
  decidable_of_iff (∀ p ∈ FolderPermission.all, a.allows p = b.allows p) (eq_iff_agree a b).symm

end Grants

end ContentApi
