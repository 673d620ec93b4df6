import ContentApi.Calendar.Reader
import ContentApi.Json.Document
import ContentApi.Json.Printer
import ContentApi.Text.Quoted
import ContentApi.Url.Resolve

/-! Everything that can go wrong, by its cause, and the words for each cause. -/

namespace ContentApi

/-- How a document differs from what its reader expects. -/
inductive Mismatch where
  | kind (found : Unexpected) (expected : String)
  | value (found : Unexpected) (expected : String)
  | length (count : Nat) (expected : String)
  | missing (name : String)
  | repeated (name : String)
  | unknownTag (name : String)
  | date (fault : DateFault)
  deriving DecidableEq

/-- Why a document cannot be read: its text breaks off, or it is not what is expected. -/
inductive Fault where
  | cut (cut : Cut)
  | mismatch (cause : Mismatch)
  deriving DecidableEq

/-- Why an argument is refused before any request is sent. -/
inductive Refusal where
  | dotSegment (argument : String)
  | emptyRange (first last : Nat)
  | pathWithoutSlash (path : String)
  | notAnObject (value : Json)
  | unnamedMetadata
  | unsendableToken
  deriving DecidableEq

/-- What a well-formed answer lacks. -/
inductive Shortage where
  | sharedLink
  | uploadedFile
  deriving DecidableEq

/-- What an answer outside the two hundreds says. -/
structure ApiFault where
  /-- The status of the answer. -/
  status : Nat
  /-- The code of the fault. -/
  code : Option String
  /-- The words for the fault, from the body or else from the status. -/
  message : String
  /-- The name under which the server remembers the request. -/
  requestId : Option String
  deriving DecidableEq

/-- Why an operation fails. -/
inductive Failure where
  | api (fault : ApiFault)
  | transport
  | document (fault : Fault)
  | address (fault : UrlFault)
  | date (fault : DateFault)
  | settings
  | refused (refusal : Refusal)
  | unexpected (shortage : Shortage)
  deriving DecidableEq

/-- The words for what a reader finds. -/
def Unexpected.describe : Unexpected → String
  | .null => "null"
  | .flag true => "boolean `true`"
  | .flag false => "boolean `false`"
  | .number (.integer n) => "integer `" ++ toString n ++ "`"
  | .number (.real x) => "floating point `" ++ x.render .document ++ "`"
  | .text s => "string " ++ quoted s
  | .sequence => "sequence"
  | .map => "map"

/-- The words for why a text is no timestamp. -/
def DateFault.describe (fault : DateFault) : String :=
  "Date error: " ++ fault.message

/-- The words for how a document differs from what its reader expects. -/
def Mismatch.message : Mismatch → String
  | .kind found expected => "invalid type: " ++ found.describe ++ ", expected " ++ expected
  | .value found expected => "invalid value: " ++ found.describe ++ ", expected " ++ expected
  | .length count expected => "invalid length " ++ toString count ++ ", expected " ++ expected
  | .missing name => "missing field `" ++ name ++ "`"
  | .repeated name => "duplicate field `" ++ name ++ "`"
  | .unknownTag name =>
    "unknown variant `" ++ name ++ "`, expected one of `file`, `folder`, `web_link`"
  | .date fault => fault.describe

/-- The words for why an argument is refused. -/
def Refusal.message : Refusal → String
  | .dotSegment argument => quoted argument ++ " is not a valid path segment"
  | .emptyRange first last =>
    "byte range " ++ toString first ++ "-Some(" ++ toString last ++ ") is empty"
  | .pathWithoutSlash path => "metadata path must start with \"/\": " ++ quoted path
  | .notAnObject value => "metadata must be a JSON object, got " ++ value.compact
  | .unnamedMetadata => "metadata needs $scope and $template to be updated"
  | .unsendableToken => "access token: failed to parse header value"

/-- The words for what an answer lacks. -/
def Shortage.message : Shortage → String
  | .sharedLink => "item answer has no shared_link"
  | .uploadedFile => "upload returned no file entry"

/-- The words for why an operation fails, with only the kind where the rest is another's words. -/
def Failure.message : Failure → String
  | .api fault => "Box API error " ++ toString fault.status ++ ": " ++ fault.message
  | .transport => "HTTP error"
  | .document _ => "JSON error"
  | .address fault => "URL error: " ++ fault.message
  | .date fault => fault.describe
  | .settings => "Config error"
  | .refused refusal => "Invalid argument: " ++ refusal.message
  | .unexpected shortage => "Unexpected response: " ++ shortage.message

/-- The status of the answer that made an operation fail, if an answer did. -/
def Failure.status? : Failure → Option Nat
  | .api fault => some fault.status
  | _ => none

end ContentApi
