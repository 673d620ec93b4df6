import ContentApi.Service.Connection
import ContentApi.Service.Route

/-! Handles: objects of the service by their names, before anything is asked about them. -/

namespace ContentApi

/-- An object of a kind, as it is known to whoever asks about it. -/
structure Handle (r : Resource) where
  /-- The connection through which the object is reached. -/
  connection : Connection
  /-- The name of the object among those of its kind. -/
  id : String

namespace Handle

variable {r : Resource}

/-- The folder that holds all others. -/
def root (c : Connection) : Handle .folder := ⟨c, "0"⟩

/-- The user in whose name requests are sent. -/
def currentUser (c : Connection) : Handle .user := ⟨c, "me"⟩

/-- Handles are equal if their objects have one name, over whatever connection. -/
instance : BEq (Handle r) := ⟨fun a b => a.id == b.id⟩

/-- An object as other documents refer to it. -/
def reference (h : Handle r) : Json :=
  .object [("id", .text h.id), ("type", .text r.typeName)]

/-- The handles of which each object has one only. -/
def distinct (handles : List (Handle r)) : List (Handle r) := handles.eraseDups

/-- The address of an object with a query. -/
def url (h : Handle r) (route : Route) (query : Query) : Except Failure Url :=
  route.endpoint.buildWith h.connection.base query.chars [h.id]

end Handle

end ContentApi
