import ContentApi.Operation.Objects

/-! Tasks on files, and the users to whom they are assigned. -/

namespace ContentApi

/-- To whom a task is assigned: a user, or whoever has a login. -/
inductive Assignee where
  | user (handle : Handle .user)
  | login (name : String)

/-- An assignee as a document. -/
def Assignee.toJson : Assignee → Json
  | .user h => .object [("id", .text h.id)]
  | .login name => .object [("login", .text name)]

namespace Handle

/-- Puts a task on a file. -/
def addTask (h : Handle .file) (action : Word .taskAction) (message : Option String)
    (due : Option Timestamp) : Operation (Snapshot .task) :=
  let task := Json.ofPresent
    [("item", some h.reference), ("action", some (.text action.requestText)),
      ("message", message.map Json.text), ("due_at", due.map instantJson)]
  (Route.tasks.endpoint.build h.connection.base []).map fun url =>
    h.connection.post url task (Response.snapshot .task)

/-- Asks for the tasks on a file. -/
def tasks (h : Handle .file) (fields : List String) : Operation (List (Datum (.record .task))) :=
  (h.url .fileTasks (Query.ofFields fields)).map fun url =>
    h.connection.get url (Response.entries (.record .task))

/-- Assigns a task. -/
def assignTask (h : Handle .task) (assignee : Assignee) :
    Operation (Snapshot .taskAssignment) :=
  (Route.taskAssignments.endpoint.build h.connection.base []).map fun url =>
    let assignment := Json.ofMembers [("task", h.reference), ("assign_to", assignee.toJson)]
    h.connection.post url assignment (Response.snapshot .taskAssignment)

/-- Asks for the assignments of a task. -/
def taskAssignments (h : Handle .task) :
    Operation (List (Datum (.record .taskAssignment))) :=
  (h.url .assignmentsOfTask Query.empty).map fun url =>
    h.connection.get url (Response.entries (.record .taskAssignment))

end Handle

end ContentApi
