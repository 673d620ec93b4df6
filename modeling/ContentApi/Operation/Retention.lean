import ContentApi.Operation.Objects

/-! Retention policies, which say how long content is kept and what becomes of it afterwards. -/

namespace ContentApi

/-- How long a policy keeps content, and what becomes of content that is kept no longer. -/
inductive RetentionTerm where
  | finite (days : UInt32) (action : Word .disposition)
  | indefinite

namespace RetentionTerm

/-- The type of a policy with a term. -/
def type : RetentionTerm → Word .retentionType
  | .finite _ _ => .finite
  | .indefinite => .indefinite

/-- What becomes of content afterwards, where a policy without end just lets go of it. -/
def action : RetentionTerm → Word .disposition
  | .finite _ action => action
  | .indefinite => .removeRetention

/-- The number of days, which a policy without end has not. -/
def days? : RetentionTerm → Option UInt32
  | .finite days _ => some days
  | .indefinite => none

end RetentionTerm

/-- A retention policy to be made as a document. -/
def newPolicyJson (name : String) (term : RetentionTerm) : Json :=
  Json.ofPresent
    [("policy_name", some (.text name)), ("policy_type", some (.text term.type.requestText)),
      ("disposition_action", some (.text term.action.requestText)),
      ("retention_length", term.days?.map fun days => .number (.integer days.toNat))]

/-- The type of a policy's object that is everything an enterprise has. -/
def enterpriseType : String := "enterprise"

namespace Connection

/-- Makes a retention policy. -/
def createPolicy (c : Connection) (name : String) (term : RetentionTerm) :
    Operation (Snapshot .retentionPolicy) :=
  (Route.retentionPolicies.endpoint.build c.base []).map fun url =>
    c.post url (newPolicyJson name term) (Response.snapshot .retentionPolicy)

/-- Assigns a retention policy to an object of a type, which has no name if there is only one. -/
def assignPolicy (c : Connection) (policy type : String) (id : Option String) :
    Operation (Snapshot .retentionPolicyAssignment) :=
  let target := Json.ofPresent [("type", some (.text type)), ("id", id.map Json.text)]
  (Route.policyAssignments.endpoint.build c.base []).map fun url =>
    c.post url (.object [("assign_to", target), ("policy_id", .text policy)])
      (Response.snapshot .retentionPolicyAssignment)

end Connection

namespace Handle

/-- Assigns a retention policy to the whole enterprise. -/
def retainEnterprise (h : Handle .retentionPolicy) :
    Operation (Snapshot .retentionPolicyAssignment) :=
  h.connection.assignPolicy h.id enterpriseType none

/-- Assigns a retention policy to a folder. -/
def retainFolder (h : Handle .retentionPolicy) (folder : Handle .folder) :
    Operation (Snapshot .retentionPolicyAssignment) :=
  h.connection.assignPolicy h.id Resource.folder.typeName (some folder.id)

end Handle

end ContentApi
