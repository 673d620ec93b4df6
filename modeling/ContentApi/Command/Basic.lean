import ContentApi.Command.Form
import ContentApi.Listing.Catalogue
import ContentApi.Operation.Files
import ContentApi.Operation.Metadata
import ContentApi.Operation.Tasks

/-! The commands, and the part of a command line that each of them takes. -/

namespace ContentApi

/-- How much of a listing is asked for. -/
structure ListWindow where
  /-- How many entries a page is asked to have. -/
  limit : Nat
  /-- How many entries are enough, unless all are asked for. -/
  max : Option Nat

/-- Something that is asked about the service. Nothing in it is changed by a command. -/
inductive Command where
  | whoami
  | info (r : Resource) (routed : r ≠ .fileVersion) (id : String)
  | fileVersions (id : String)
  | fileTasks (id : String)
  | fileDownload (id path : String)
  | folderItems (id : String) (window : ListWindow)
  | holds (name : Option String) (window : ListWindow)
  | holdAssignments (id : String) (filter : HoldAssignmentFilter) (window : ListWindow)
  | policies (filter : PolicyFilter) (window : ListWindow)
  | policyAssignments (id : String) (type : Option String) (window : ListWindow)
  | versionRetentions (filter : VersionRetentionFilter) (window : ListWindow)
  | metadata (k : Content) (id : String) (template scope : Option String)
  | allMetadata (k : Content) (id : String) (window : ListWindow)
  | template (key scope : String)
  | templates (scope : String) (window : ListWindow)
  | taskAssignments (id : String)

/-- What a command takes, and the command that it then is. -/
structure CommandForm where
  /-- The words that name the command. -/
  path : List String
  /-- The forms of the words without hyphens. -/
  operands : List ValueForm
  /-- The options. -/
  options : List OptionForm
  /-- The command with what it was given, unless something is missing. -/
  make : Given → Option Command

/-- An option with a name only, which is given once. -/
def plainOption (name : String) (form : ValueForm) : OptionForm := ⟨name, none, form, false⟩

/-- The options of listings. -/
def listOptions : List OptionForm := [plainOption "limit" .count, plainOption "max" .count]

/-- A word in the spelling of the service, with underscores in place of hyphens. -/
def serviceSpelling (word : String) : String :=
  String.ofList (word.toList.map fun c => if c = '-' then '_' else c)

/-- The scope of templates unless another is given. -/
def usualScope : String := "enterprise"

namespace Given

/-- How much of a listing is asked for. -/
def window (given : Given) : ListWindow :=
  ⟨(given.count? "limit").getD usualLimit, given.count? "max"⟩

/-- The kind of content that the first word names. -/
def content? (given : Given) : Option Content :=
  given.operands.head?.bind fun word =>
    if word = "file" then some .file else if word = "folder" then some .folder else none

/-- A filter of hold assignments, in which an object is named only together with its type. -/
def holdFilter? (given : Given) : Option HoldAssignmentFilter :=
  let type := (given.value? "assign-to-type").map serviceSpelling
  let id := given.value? "assign-to-id"
  if id.isSome && type.isNone then none else some ⟨type, id⟩

/-- A filter of retention policies. -/
def policyFilter (given : Given) : PolicyFilter :=
  ⟨given.value? "name", (given.value? "policy-type").map (Word.ofText .retentionType),
    given.value? "created-by"⟩

/-- A filter of retentions of file versions. -/
def versionRetentionFilter (given : Given) : VersionRetentionFilter :=
  { file := given.value? "file-id"
    version := given.value? "file-version-id"
    policy := given.value? "policy-id"
    action := (given.value? "disposition-action").map fun word =>
      Word.ofText .disposition (serviceSpelling word)
    before := none
    after := none }

end Given

namespace CommandForm

/-- The form of a command that describes an object. -/
def ofInfo (group : String) (r : Resource) (routed : r ≠ .fileVersion) : CommandForm where
  path := [group, "info"]
  operands := [.text]
  options := []
  make given := (given.operand? 0).map (.info r routed)

/-- The form of a command about one object. -/
def ofObject (group name : String) (command : String → Command) : CommandForm where
  path := [group, name]
  operands := [.text]
  options := []
  make given := (given.operand? 0).map command

/-- The form of the command that stores the bytes of a file. -/
def fileDownload : CommandForm where
  path := ["file", "download"]
  operands := [.text]
  options := [⟨"output", some 'o', .path, false⟩]
  make given := do return .fileDownload (← given.operand? 0) (← given.value? "output")

/-- The form of the command that lists a folder, the one that holds all others unless another is
named. -/
def folderItems : CommandForm where
  path := ["folder", "list"]
  operands := [.text]
  options := listOptions
  make given := some (.folderItems ((given.operand? 0).getD "0") given.window)

/-- The form of the command that lists legal holds. -/
def holds : CommandForm where
  path := ["legal-hold", "list"]
  operands := []
  options := plainOption "name" .text :: listOptions
  make given := some (.holds (given.value? "name") given.window)

/-- The form of the command that lists the assignments of a legal hold. -/
def holdAssignments : CommandForm where
  path := ["legal-hold", "assignments"]
  operands := [.text]
  options :=
    plainOption "assign-to-type" (.choice ["file", "file-version", "folder", "user"]) ::
      plainOption "assign-to-id" .text :: listOptions
  make given := do
    return .holdAssignments (← given.operand? 0) (← given.holdFilter?) given.window

/-- The form of the command that lists retention policies. -/
def policies : CommandForm where
  path := ["retention", "list"]
  operands := []
  options :=
    plainOption "name" .text :: plainOption "policy-type" (.choice ["finite", "indefinite"]) ::
      plainOption "created-by" .text :: listOptions
  make given := some (.policies given.policyFilter given.window)

/-- The form of the command that lists the assignments of a retention policy. -/
def policyAssignments : CommandForm where
  path := ["retention", "assignments"]
  operands := [.text]
  options := plainOption "assign-to-type" (.choice ["enterprise", "folder"]) :: listOptions
  make given := do
    return .policyAssignments (← given.operand? 0) (given.value? "assign-to-type") given.window

/-- The form of the command that lists retentions of file versions. -/
def versionRetentions : CommandForm where
  path := ["file-version-retention", "list"]
  operands := []
  options :=
    plainOption "file-id" .text :: plainOption "file-version-id" .text ::
      plainOption "policy-id" .text ::
        plainOption "disposition-action" (.choice ["permanently-delete", "remove-retention"]) ::
          listOptions
  make given := some (.versionRetentions given.versionRetentionFilter given.window)

/-- The words for the kinds of content, and the name of one. -/
def contentOperands : List ValueForm := [.choice ["file", "folder"], .text]

/-- The form of the command that shows a metadata instance. -/
def metadata : CommandForm where
  path := ["metadata", "get"]
  operands := contentOperands
  options := [plainOption "template" .text, plainOption "scope" .text]
  make given := do
    return .metadata (← given.content?) (← given.operand? 1) (given.value? "template")
      (given.value? "scope")

/-- The form of the command that lists metadata instances. -/
def allMetadata : CommandForm where
  path := ["metadata", "list"]
  operands := contentOperands
  options := listOptions
  make given := do return .allMetadata (← given.content?) (← given.operand? 1) given.window

/-- The form of the command that shows a metadata template. -/
def template : CommandForm where
  path := ["template", "get"]
  operands := [.text]
  options := [plainOption "scope" .text]
  make given := do
    return .template (← given.operand? 0) ((given.value? "scope").getD usualScope)

/-- The form of the command that lists metadata templates. -/
def templates : CommandForm where
  path := ["template", "list"]
  operands := []
  options := plainOption "scope" .text :: listOptions
  make given := some (.templates ((given.value? "scope").getD usualScope) given.window)

/-- The form of the command that tells whose the token is. -/
def whoami : CommandForm where
  path := ["whoami"]
  operands := []
  options := []
  make _ := some .whoami

/-- The forms of all commands. -/
def all : List CommandForm :=
  [whoami, ofInfo "file" .file (by decide), ofObject "file" "versions" .fileVersions,
    ofObject "file" "tasks" .fileTasks, fileDownload, ofInfo "folder" .folder (by decide),
    folderItems, ofInfo "legal-hold" .legalHold (by decide), holds, holdAssignments,
    ofInfo "retention" .retentionPolicy (by decide), policies, policyAssignments,
    ofInfo "file-version-retention" .fileVersionRetention (by decide), versionRetentions, metadata,
    allMetadata, template, templates, ofInfo "task" .task (by decide),
    ofObject "task" "assignments" .taskAssignments]

end CommandForm

end ContentApi
