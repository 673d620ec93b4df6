import ContentApi.Operation.Objects

/-! What files and folders have in common: they are copied, moved, renamed and shared. -/

namespace ContentApi

/-- The folder that content goes to, and its name there unless that stays the same. -/
def destinationJson (folder : Handle .folder) (name : Option String) : Json :=
  Json.ofPresent
    [("parent", some (.object [("id", .text folder.id)])), ("name", name.map Json.text)]

/-- The settings of a new shared link. -/
structure LinkOffer where
  /-- Who may follow the link. -/
  access : Word .linkAccess
  /-- When the link ends, unless it does not. -/
  expiry : Option Timestamp
  /-- What those who follow the link may do, unless that goes without saying. -/
  permissions : Option (Record .sharedLinkPermissions)

/-- The shared link of an offer, of which only the settings are known. -/
def LinkOffer.link (offer : LinkOffer) : Record .sharedLink :=
  let permissions : Slot (recordMember "permissions" .sharedLinkPermissions) :=
    match offer.permissions with
    | some p => .given (.record p)
    | none => .absent
  ((Fields.blank Kind.sharedLink.members
    |>.set linkAccessPlace (.given (.leaf (l := .word .linkAccess) offer.access)))
    |>.set linkExpiryPlace (.plain (l := .instant) offer.expiry))
    |>.set linkPermissionsPlace permissions

/-- Reads the shared link in an answer that describes content. -/
def Response.sharedLink (response : Response) : Except Failure (Record .sharedLink) := do
  let item ← response.datum (.record .itemFields)
  match (item.fields.get (.ofIndex _ 16 rfl)).value? with
  | some link => return link.fields
  | none => throw (.unexpected .sharedLink)

namespace Content

/-- Copies content to a folder. -/
def copy (k : Content) (h : Handle k.resource) (folder : Handle .folder) (name : Option String) :
    Operation (Snapshot k.resource) :=
  (h.url (.copies k) Query.empty).map fun url =>
    h.connection.post url (destinationJson folder name) (Response.snapshot k.resource)

/-- Moves content to a folder. -/
def move (k : Content) (h : Handle k.resource) (folder : Handle .folder) (name : Option String) :
    Operation (Snapshot k.resource) :=
  (h.url (.content k) Query.empty).map fun url =>
    h.connection.put url (destinationJson folder name) (Response.snapshot k.resource)

/-- Gives content another name. -/
def rename (k : Content) (h : Handle k.resource) (name : String) :
    Operation (Snapshot k.resource) :=
  (h.url (.content k) Query.empty).map fun url =>
    h.connection.put url (.object [("name", .text name)]) (Response.snapshot k.resource)

/-- Shares content by a link. -/
def share (k : Content) (h : Handle k.resource) (offer : LinkOffer) :
    Operation (Record .sharedLink) :=
  (h.url (.content k) (Query.ofFields ["shared_link"])).map fun url =>
    h.connection.put url (.object [("shared_link", linkRequest offer.link)])
      Response.sharedLink

end Content

end ContentApi
