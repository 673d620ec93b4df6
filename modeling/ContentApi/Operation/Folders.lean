import ContentApi.Operation.Files

/-! What is asked of folders: to be made and deleted, and to take files and links. -/

namespace ContentApi

/-- A file to be sent to a folder. -/
structure Upload where
  /-- The name of the file. -/
  name : String
  /-- The bytes of the file. -/
  content : Bytes
  /-- When the content was made, if that is to be recorded. -/
  createdAt : Option Timestamp
  /-- When the content was last changed, if that is to be recorded. -/
  modifiedAt : Option Timestamp

/-- What is said about a file that is sent to a folder. -/
def Upload.attributes (upload : Upload) (folder : Handle .folder) : Json :=
  Json.ofPresent
    [("name", some (.text upload.name)), ("parent", some (.object [("id", .text folder.id)])),
      ("content_created_at", upload.createdAt.map instantJson),
      ("content_modified_at", upload.modifiedAt.map instantJson)]

/-- Some of the items of a folder that lie side by side. -/
structure ItemRange where
  /-- How many items come before these. -/
  offset : UInt64
  /-- How many items these may be. -/
  limit : UInt64
  /-- How many items the folder has. -/
  total : UInt64
  /-- The items. -/
  entries : List (Datum .item)

/-- Reads some of the items of a folder. -/
def Response.itemRange (response : Response) : Except Failure ItemRange := do
  let page ← response.datum (.record (.offsetPage .item))
  return {
    offset := (page.fields.get (m := .plain "offset" .count) (.ofIndex _ 2 rfl)).value
    limit := (page.fields.get (m := .plain "limit" .count) (.ofIndex _ 3 rfl)).value
    total := (page.fields.get (m := .plain "total_count" .count) (.ofIndex _ 1 rfl)).value
    entries := (page.fields.get (.ofIndex _ 0 rfl)).items }

namespace Handle

/-- Makes a folder inside another. -/
def createFolder (h : Handle .folder) (name : String) : Operation (Snapshot .folder) :=
  (Route.folders.endpoint.build h.connection.base []).map fun url =>
    h.connection.post url (destinationJson h (some name)) (Response.snapshot .folder)

/-- Deletes a folder, which must be empty unless all that it holds is to be deleted too. -/
def deleteFolder (h : Handle .folder) (recursive : Bool) : Operation Unit :=
  (h.url (.content .folder)
    (Query.empty.add "recursive" (if recursive then "true" else "false"))).map fun url =>
    h.connection.delete url

/-- Asks for some of the items of a folder. -/
def itemRange (h : Handle .folder) (offset limit : Nat) (fields : List String) :
    Operation ItemRange :=
  let query := ((Query.ofFields fields).add "limit" (toString limit)).add "offset" (toString offset)
  (h.url .folderItems query).map fun url =>
    h.connection.get url Response.itemRange

/-- Makes a web link in a folder. -/
def createWebLink (h : Handle .folder) (address : String) (name description : Option String) :
    Operation (Snapshot .webLink) :=
  let link := Json.ofPresent
    [("url", some (.text address)), ("parent", some (.object [("id", .text h.id)])),
      ("name", name.map Json.text), ("description", description.map Json.text)]
  (Route.webLinks.endpoint.build h.connection.base []).map fun url =>
    h.connection.post url link (Response.snapshot .webLink)

/-- Sends a file to a folder. -/
def uploadFile (h : Handle .folder) (upload : Upload) : Operation (Snapshot .file) :=
  (Route.uploads.endpoint.build h.connection.uploadBase []).map fun url =>
    h.connection.upload url (upload.attributes h) upload.name upload.content
      Response.uploadedFile

end Handle

end ContentApi
