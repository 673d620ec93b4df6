import ContentApi.Failure
import ContentApi.Http.Message
import ContentApi.Schema.Reader
import ContentApi.Schema.View

/-! Calls: one request together with the way its answer is read. -/

namespace ContentApi

/-- What takes requests in some state of the world. A request without an answer has failed. -/
structure Transport (σ : Type) where
  /-- The answer to a request, and the state after it. -/
  exchange : Request → σ → Option Response × σ

/-- A request and the way its answer is read. -/
structure Call (α : Type) where
  /-- The request. -/
  request : Request
  /-- What an answer of success means. -/
  read : Response → Except Failure α

/-- What an operation sends, unless its arguments are refused. -/
abbrev Operation (α : Type) := Except Failure (Call α)

/-- What an answer outside the two hundreds says. A body counts only if it is a report of a fault,
and a report without words leaves them to the status. -/
def ApiFault.ofResponse (r : Response) : ApiFault :=
  match Datum.ofText (.record .apiError) r.text with
  | .ok (.record report) =>
    { status := r.status
      code := report.text? "code"
      message := (report.text? "message").getD (statusText r.status)
      requestId := report.text? "request_id" }
  | .error _ => ⟨r.status, none, statusText r.status, none⟩

namespace Call

/-- The outcome of a call, given its answer. -/
def outcome {α : Type} (call : Call α) : Option Response → Except Failure α
  | none => .error .transport
  | some r => if r.isSuccess then call.read r else .error (.api (.ofResponse r))

/-- Sends the request and reads the answer. -/
def run {α σ : Type} (call : Call α) (transport : Transport σ) (world : σ) :
    Except Failure α × σ :=
  let answered := transport.exchange call.request world
  (call.outcome answered.1, answered.2)

/-- A call whose outcome is put to some further use. -/
def andThen {α β : Type} (call : Call α) (next : α → Except Failure β) : Call β :=
  ⟨call.request, fun r => (call.read r).bind next⟩

end Call

namespace Operation

/-- Sends the request of an operation, if it has one. -/
def run {α σ : Type} (operation : Operation α) (transport : Transport σ) (world : σ) :
    Except Failure α × σ :=
  match operation with
  | .ok call => call.run transport world
  | .error failure => (.error failure, world)

/-- An operation whose outcome is put to some further use. -/
def andThen {α β : Type} (operation : Operation α) (next : α → Except Failure β) : Operation β :=
  operation.map fun call => call.andThen next

end Operation

/-- Whether an answer carries nothing to read. -/
def Response.isBlank (r : Response) : Bool :=
  r.status = 204 || (trimChars r.text.toList).isEmpty

/-- Reads an untyped answer. One that carries nothing reads as null. -/
def Response.json (r : Response) : Except Failure Json :=
  if r.isBlank then .ok .null
  else (Json.ofText r.text).mapError fun cut => .document (.cut cut)

/-- Reads a typed answer from its text. One that carries nothing reads as null. -/
def Response.datum (s : Shape) (r : Response) : Except Failure (Datum s) :=
  (if r.isBlank then Datum.ofJson s .null else Datum.ofText s r.text).mapError .document

end ContentApi
