import ContentApi.Operation.Objects

/-! Legal holds, which keep what they are assigned to from being deleted. -/

namespace ContentApi

/-- A legal hold to be made. -/
structure NewHold where
  /-- The name of the hold. -/
  name : String
  /-- What the hold is for. -/
  description : Option String
  /-- From when on content is held, unless it always was. -/
  startedAt : Option Timestamp
  /-- Until when content is held, unless it always is. -/
  endedAt : Option Timestamp

/-- A legal hold to be made as a document. -/
def NewHold.toJson (hold : NewHold) : Json :=
  Json.ofPresent
    [("policy_name", some (.text hold.name)), ("description", hold.description.map Json.text),
      ("filter_started_at", hold.startedAt.map instantJson),
      ("filter_ended_at", hold.endedAt.map instantJson)]

namespace Connection

/-- Makes a legal hold. -/
def createHold (c : Connection) (hold : NewHold) : Operation (Snapshot .legalHold) :=
  (Route.legalHolds.endpoint.build c.base []).map fun url =>
    c.post url hold.toJson (Response.snapshot .legalHold)

/-- Assigns a legal hold to an object of a type. -/
def assignHold (c : Connection) (policy type id : String) :
    Operation (Snapshot .legalHoldAssignment) :=
  (Route.holdAssignments.endpoint.build c.base []).map fun url =>
    let target := Json.object [("id", .text id), ("type", .text type)]
    c.post url (.object [("assign_to", target), ("policy_id", .text policy)])
      (Response.snapshot .legalHoldAssignment)

end Connection

/-- Puts an object on a legal hold. -/
def Handle.hold {r : Resource} (h : Handle .legalHold) (target : Handle r) :
    Operation (Snapshot .legalHoldAssignment) :=
  h.connection.assignHold h.id r.typeName target.id

end ContentApi
