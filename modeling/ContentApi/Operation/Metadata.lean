import ContentApi.Metadata.Basic
import ContentApi.Metadata.Template
import ContentApi.Operation.Objects

/-! Metadata of files and folders, and the templates that it follows. -/

namespace ContentApi

/-- Reads an answer that is a metadata instance. -/
def Response.metadata (response : Response) : Except Failure Metadata := do
  let value ← response.json
  (Metadata.ofJson value).mapError .refused

/-- The address of a metadata instance. -/
def Content.metadataUrl (k : Content) (h : Handle k.resource) (place : MetadataPlace) :
    Except Failure Url :=
  (Route.metadataInstance k).endpoint.build h.connection.base [h.id, place.scope, place.template]

namespace Content

/-- Makes a metadata instance. -/
def createMetadata (k : Content) (h : Handle k.resource) (place : MetadataPlace) (m : Metadata) :
    Operation Metadata :=
  (k.metadataUrl h place).map fun url =>
    h.connection.post url m.toJson Response.metadata

/-- Asks for a metadata instance. -/
def getMetadata (k : Content) (h : Handle k.resource) (place : MetadataPlace) :
    Operation Metadata :=
  (k.metadataUrl h place).map fun url =>
    h.connection.get url Response.metadata

/-- Sends the steps taken on a metadata instance, which must say where it is kept. -/
def updateMetadata (k : Content) (h : Handle k.resource) (m : Metadata) : Operation Metadata :=
  match m.scope?, m.template? with
  | some scope, some template =>
    (k.metadataUrl h ⟨template, scope⟩).map fun url =>
      ⟨h.connection.request .put url (.patch m.patch), Response.metadata⟩
  | _, _ => .error (.refused .unnamedMetadata)

/-- Deletes a metadata instance. -/
def deleteMetadata (k : Content) (h : Handle k.resource) (place : MetadataPlace) :
    Operation Unit :=
  (k.metadataUrl h place).map fun url =>
    h.connection.delete url

end Content

/-- A metadata template to be made. -/
structure NewTemplate where
  /-- Where the template is defined. -/
  scope : String
  /-- The name of the template among those of its scope. -/
  key : String
  /-- The name of the template for people. -/
  displayName : String
  /-- Whether the template is hidden from people. -/
  isHidden : Bool
  /-- The fields of instances. -/
  fields : List (Record .templateField)

/-- A metadata template to be made as a document. -/
def NewTemplate.toJson (t : NewTemplate) : Json :=
  Json.ofMembers
    [("scope", .text t.scope), ("templateKey", .text t.key), ("displayName", .text t.displayName),
      ("hidden", .flag t.isHidden),
      ("fields", .array (t.fields.map fun field => (Datum.record field).toJson))]

namespace Connection

/-- Asks for a metadata template. -/
def getTemplate (c : Connection) (template scope : String) (fields : List String) :
    Operation (Datum (.record .template)) :=
  (Route.schema.endpoint.buildWith c.base (Query.ofFields fields).chars
    [scope, template]).map fun url =>
    c.get url (Response.datum (.record .template))

/-- Makes a metadata template. -/
def createTemplate (c : Connection) (t : NewTemplate) : Operation (Datum (.record .template)) :=
  (Route.schemas.endpoint.build c.base []).map fun url =>
    c.post url t.toJson (Response.datum (.record .template))

/-- Deletes a metadata template. -/
def deleteTemplate (c : Connection) (scope template : String) : Operation Unit :=
  (Route.schema.endpoint.build c.base [scope, template]).map fun url =>
    c.delete url

end Connection

end ContentApi
