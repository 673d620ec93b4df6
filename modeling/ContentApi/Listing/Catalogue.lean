import ContentApi.Listing.Basic

/-! The listings that the service has, and what they are narrowed down by. -/

namespace ContentApi

/-- How many entries a page has unless something else is asked for. -/
def usualLimit : Nat := 100

/-- What legal hold assignments are narrowed down by. -/
structure HoldAssignmentFilter where
  /-- The type of the objects assigned. -/
  type : Option String
  /-- The name of the object assigned. -/
  id : Option String

/-- What retention policies are narrowed down by. -/
structure PolicyFilter where
  /-- The end of the names of policies. -/
  name : Option String
  /-- The type of policies. -/
  type : Option (Word .retentionType)
  /-- The name of the user who made the policies. -/
  creator : Option String

/-- What retentions of file versions are narrowed down by. -/
structure VersionRetentionFilter where
  /-- The name of the file. -/
  file : Option String
  /-- The name of the version of the file. -/
  version : Option String
  /-- The name of the policy. -/
  policy : Option String
  /-- What becomes of the version when it is kept no longer. -/
  action : Option (Word .disposition)
  /-- The time before which the version is kept no longer. -/
  before : Option Timestamp
  /-- The time until which the version is kept. -/
  after : Option Timestamp

/-- A filter of hold assignments as a query. -/
def HoldAssignmentFilter.query (filter : HoldAssignmentFilter) : Query :=
  (Query.empty.addIfPresent "assign_to_type" filter.type).addIfPresent "assign_to_id" filter.id

/-- A filter of retention policies as a query. -/
def PolicyFilter.query (filter : PolicyFilter) : Query :=
  ((Query.empty.addIfPresent "policy_name" filter.name)
    |>.addIfPresent "policy_type" (filter.type.map (·.requestText)))
    |>.addIfPresent "created_by_user_id" filter.creator

/-- A filter of retentions of file versions as a query. -/
def VersionRetentionFilter.query (filter : VersionRetentionFilter) : Query :=
  (((((Query.empty.addIfPresent "file_id" filter.file)
    |>.addIfPresent "file_version_id" filter.version)
    |>.addIfPresent "policy_id" filter.policy)
    |>.addIfPresent "disposition_action" (filter.action.map (·.requestText)))
    |>.addIfPresent "disposition_before" (filter.before.map Timestamp.format))
    |>.addIfPresent "disposition_after" (filter.after.map Timestamp.format)

namespace Connection

variable {s : Shape}

/-- The listing at a route. -/
def listing (c : Connection) (route : Route) (arguments : List String) (query : Query)
    (limit : Nat) (paging : Paging) : Except Failure (Listing s) :=
  (route.endpoint.buildWith c.base query.chars arguments).map fun url => ⟨c, url, limit, paging⟩

/-- The legal holds, or those whose names begin with a text. -/
def holds (c : Connection) (name : Option String) (limit : Nat) (fields : List String) :
    Except Failure (Listing (.record .legalHold)) :=
  c.listing .legalHolds [] ((Query.empty.addIfPresent "policy_name" name).addFields fields) limit
    .marked

/-- The retention policies. -/
def policies (c : Connection) (filter : PolicyFilter) (limit : Nat) (fields : List String) :
    Except Failure (Listing (.record .retentionPolicy)) :=
  c.listing .retentionPolicies [] (filter.query.addFields fields) limit .marked

/-- The retentions of file versions. -/
def versionRetentions (c : Connection) (filter : VersionRetentionFilter) (limit : Nat)
    (fields : List String) : Except Failure (Listing (.record .fileVersionRetention)) :=
  c.listing .versionRetentions [] (filter.query.addFields fields) limit .marked

/-- The metadata templates of a scope. -/
def templates (c : Connection) (scope : String) (limit : Nat) (fields : List String) :
    Except Failure (Listing (.record .template)) :=
  c.listing .templates [scope] (Query.ofFields fields) limit .marked

end Connection

namespace Handle

/-- The items of a folder. -/
def children (h : Handle .folder) (limit : Nat) (fields : List String) :
    Except Failure (Listing .item) :=
  h.connection.listing .folderItems [h.id] (Query.ofFields fields) limit .counted

/-- The assignments of a legal hold. -/
def holdAssignments (h : Handle .legalHold) (filter : HoldAssignmentFilter) (limit : Nat)
    (fields : List String) : Except Failure (Listing (.record .legalHoldAssignment)) :=
  h.connection.listing .assignmentsOfHold [h.id] (filter.query.addFields fields) limit .marked

/-- The assignments of a retention policy, or those to objects of a type. -/
def policyAssignments (h : Handle .retentionPolicy) (type : Option String) (limit : Nat)
    (fields : List String) : Except Failure (Listing (.record .retentionPolicyAssignment)) :=
  h.connection.listing .assignmentsOfPolicy [h.id]
    ((Query.empty.addIfPresent "type" type).addFields fields) limit .marked

end Handle

/-- The metadata instances of content. -/
def Content.allMetadata (k : Content) (h : Handle k.resource) (limit : Nat)
    (fields : List String) : Except Failure (Listing (.leaf .properties)) :=
  h.connection.listing (.metadata k) [h.id] (Query.ofFields fields) limit .marked

end ContentApi
