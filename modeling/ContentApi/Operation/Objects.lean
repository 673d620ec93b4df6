import ContentApi.Service.Handle
import ContentApi.Snapshot.View

/-! What may be asked of any object: to be described, to be changed and to be deleted. -/

namespace ContentApi

/-- Reads an answer that describes an object. -/
def Response.snapshot (r : Resource) (response : Response) : Except Failure (Snapshot r) := do
  let value ← response.json
  (Snapshot.ofJson r value).mapError .document

/-- Reads the entries of an answer that is a collection. -/
def Response.entries (s : Shape) (response : Response) : Except Failure (List (Datum s)) := do
  let collection ← response.datum (.record (.collection s))
  return collectionEntries collection.fields

/-- An instant as a document. -/
def instantJson (t : Timestamp) : Json := .text t.format

namespace Handle

variable {r : Resource}

/-- Asks for a description of an object, or of some of its members. -/
def info (h : Handle r) (fields : List String) (routed : r ≠ .fileVersion := by decide) :
    Operation (Snapshot r) :=
  (h.url (r.route routed) (Query.ofFields fields)).map fun url =>
    h.connection.get url (Response.snapshot r)

/-- Sends the changes of a snapshot, on which the answer is overlaid. -/
def update (h : Handle r) (s : Snapshot r) (editable : r.isEditable = true := by rfl) :
    Operation (Snapshot r) :=
  (h.url (r.route (Resource.ne_fileVersion_of_isEditable editable)) Query.empty).map fun url =>
    let changes := s.pendingChanges.getD (.object [])
    h.connection.put url changes fun response => do
      let answer ← response.json
      (s.update answer).mapError .document

/-- Sends the changes of a snapshot and gives the snapshot after it. A failure changes nothing. -/
def sendChanges {σ : Type} (h : Handle r) (s : Snapshot r) (transport : Transport σ) (world : σ)
    (editable : r.isEditable = true := by rfl) : Except Failure Unit × Snapshot r × σ :=
  match (h.update s editable).run transport world with
  | (.ok next, world) => (.ok (), next, world)
  | (.error failure, world) => (.error failure, s, world)

/-- Deletes an object. -/
def delete (h : Handle r) (deletable : r.isDeletable = true := by rfl) : Operation Unit :=
  (h.url (r.route (Resource.ne_fileVersion_of_isDeletable deletable)) Query.empty).map fun url =>
    h.connection.delete url

end Handle

end ContentApi
