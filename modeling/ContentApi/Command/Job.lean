import ContentApi.Command.Basic
import ContentApi.Listing.Walk

/-! Jobs: the operation or the listing that a command comes down to, and what it produces. -/

namespace ContentApi

/-- What a command produces: a document to print, or a file. -/
inductive Product where
  | document (value : Json)
  | file (path : String) (content : Bytes)

/-- What a command comes down to. -/
inductive Job where
  | single (operation : Operation Product)
  /-- A listing of which so many entries are enough, unless all are asked for. -/
  | many {s : Shape} (listing : Except Failure (Listing s)) (max : Option Nat)

/-- A description of an object for display. -/
def Product.ofSnapshot {r : Resource} (s : Snapshot r) : Product :=
  .document s.datum.toDisplay

/-- Documents for display. -/
def Product.ofEntries {s : Shape} (entries : List (Datum s)) : Product :=
  .document (.array (entries.map Datum.toDisplay))

namespace Job

/-- An operation whose outcome is made into a product. -/
def ofOperation {α : Type} (operation : Operation α) (product : α → Product) : Job :=
  .single (operation.andThen fun outcome => .ok (product outcome))

/-- Does a job, for which at most so many pages are fetched. -/
def run {σ : Type} (transport : Transport σ) (pages : Nat) (world : σ) :
    Job → Outcome Product × σ
  | .single operation =>
    match operation.run transport world with
    | (.ok product, world) => (.complete product, world)
    | (.error failure, world) => (.failed failure, world)
  | .many (.error failure) _ => (.failed failure, world)
  | .many (.ok l) max =>
    match l.gather transport (fun count => max.any (· ≤ count)) pages world with
    | (.complete entries, world) => (.complete (.ofEntries entries), world)
    | (.failed failure, world) => (.failed failure, world)
    | (.short, world) => (.short, world)

end Job

/-- The job that a command is, over a connection and for the members asked for. -/
def Command.job (c : Connection) (fields : List String) : Command → Job
  | .whoami => .ofOperation ((Handle.currentUser c).info fields) .ofSnapshot
  | .info r routed id => .ofOperation ((Handle.mk (r := r) c id).info fields routed) .ofSnapshot
  | .fileVersions id => .ofOperation (Handle.versions ⟨c, id⟩) .ofEntries
  | .fileTasks id => .ofOperation (Handle.tasks ⟨c, id⟩ fields) .ofEntries
  | .fileDownload id path => .ofOperation (Handle.download ⟨c, id⟩) (.file path)
  | .folderItems id window => .many (Handle.children ⟨c, id⟩ window.limit fields) window.max
  | .holds name window => .many (c.holds name window.limit fields) window.max
  | .holdAssignments id filter window =>
    .many (Handle.holdAssignments ⟨c, id⟩ filter window.limit fields) window.max
  | .policies filter window => .many (c.policies filter window.limit fields) window.max
  | .policyAssignments id type window =>
    .many (Handle.policyAssignments ⟨c, id⟩ type window.limit fields) window.max
  | .versionRetentions filter window =>
    .many (c.versionRetentions filter window.limit fields) window.max
  | .metadata k id key scope =>
    .ofOperation (k.getMetadata ⟨c, id⟩ (.resolve key scope)) fun m => .document m.toJson
  | .allMetadata k id window => .many (k.allMetadata ⟨c, id⟩ window.limit fields) window.max
  | .template key scope =>
    .ofOperation (c.getTemplate key scope fields) fun t => .document t.toDisplay
  | .templates scope window => .many (c.templates scope window.limit fields) window.max
  | .taskAssignments id => .ofOperation (Handle.taskAssignments ⟨c, id⟩) .ofEntries

end ContentApi
