import ContentApi.Operation.Content

/-! What is asked of files: their bytes, their versions and the locks on them. -/

namespace ContentApi

/-- Sends a file with what is said about it. -/
def Connection.upload {α : Type} (c : Connection) (url : Url) (attributes : Json) (name : String)
    (content : Bytes) (read : Response → Except Failure α) : Call α :=
  let parts :=
    [⟨"attributes", none, utf8Bytes attributes.compact⟩, ⟨"file", some name, content⟩]
  ⟨c.request .post url (.form parts), read⟩

/-- Reads the first file of an answer to an upload. -/
def Response.uploadedFile (response : Response) : Except Failure (Snapshot .file) := do
  match ← response.entries (.record .file) with
  | file :: _ => return Snapshot.ofDatum (r := .file) file
  | [] => throw (.unexpected .uploadedFile)

/-- Why a range is refused, if it ends before it begins. -/
def ByteRange.refusal? (range : ByteRange) : Option Refusal :=
  match range.last with
  | some last => if last < range.first then some (.emptyRange range.first last) else none
  | none => none

namespace Handle

/-- Locks a file, until some time or for good. -/
def lock (h : Handle .file) (expiry : Option Timestamp) (preventDownload : Bool) :
    Operation (Snapshot .file) :=
  let lock := Json.ofPresent
    [("type", some (.text "lock")), ("expires_at", expiry.map instantJson),
      ("is_download_prevented", some (.flag preventDownload))]
  (h.url (.content .file) (Query.ofFields ["lock"])).map fun url =>
    h.connection.put url (.object [("lock", lock)]) (Response.snapshot .file)

/-- Removes the lock on a file. -/
def unlock (h : Handle .file) : Operation (Snapshot .file) :=
  (h.url (.content .file) (Query.ofFields ["lock"])).map fun url =>
    h.connection.put url (.object [("lock", .null)]) (Response.snapshot .file)

/-- Asks for the bytes of a file. -/
def download (h : Handle .file) : Operation Bytes :=
  (h.url .fileBytes Query.empty).map fun url =>
    h.connection.download url none

/-- Asks for some of the bytes of a file, both ends included. -/
def downloadRange (h : Handle .file) (range : ByteRange) : Operation Bytes :=
  match range.refusal? with
  | some refusal => .error (.refused refusal)
  | none => (h.url .fileBytes Query.empty).map fun url => h.connection.download url (some range)

/-- Sends other bytes for a file, whose present ones become an earlier version. -/
def uploadVersion (h : Handle .file) (content : Bytes) (modifiedAt : Option Timestamp) :
    Operation (Snapshot .file) :=
  let attributes := Json.ofPresent [("content_modified_at", modifiedAt.map instantJson)]
  (Route.fileBytes.endpoint.build h.connection.uploadBase [h.id]).map fun url =>
    h.connection.upload url attributes "file" content Response.uploadedFile

/-- Asks for the earlier versions of a file. -/
def versions (h : Handle .file) : Operation (List (Datum (.record .fileVersion))) :=
  (h.url .fileVersions Query.empty).map fun url =>
    h.connection.get url (Response.entries (.record .fileVersion))

/-- Deletes a version of a file. -/
def deleteVersion (version : Handle .fileVersion) (file : Handle .file) : Operation Unit :=
  (Route.fileVersion.endpoint.build version.connection.base [file.id, version.id]).map fun url =>
    version.connection.delete url

/-- Makes a copy of a version of a file its present one. -/
def promote (version : Handle .fileVersion) (file : Handle .file) :
    Operation (Snapshot .fileVersion) :=
  (Route.currentVersion.endpoint.build version.connection.base [file.id]).map fun url =>
    version.connection.post url version.reference (Response.snapshot .fileVersion)

/-- Asks for the bytes of a version of a file. -/
def downloadVersion (version : Handle .fileVersion) (file : Handle .file) : Operation Bytes :=
  let query := Query.empty.add "version" version.id
  (Route.fileBytes.endpoint.buildWith version.connection.base query.chars [file.id]).map fun url =>
    version.connection.download url none

end Handle

end ContentApi
