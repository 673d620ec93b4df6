import ContentApi.Failure
import ContentApi.Url.Query

/-! Endpoints: relative paths with places for arguments, each of which fills one segment. -/

namespace ContentApi

/-- A relative path in which `%s` marks the places of arguments. -/
structure Endpoint where
  /-- The path with its marks. -/
  template : String
  deriving DecidableEq

/-- Whether an argument would be taken for a step in the path rather than a segment. -/
def isDotSegment (argument : String) : Bool :=
  argument == "." || argument == ".."

/-- A value encoded so that it fills one segment. -/
def encodeSegment (argument : String) : List Char :=
  percentEncode keepsInSegment argument.toList

/-- Fills the marks of a template in order. Marks without an argument are left out. -/
def fillTemplate : List Char → List String → Except Refusal (List Char)
  | '%' :: 's' :: rest, argument :: others =>
    if isDotSegment argument then .error (.dotSegment argument)
    else (fillTemplate rest others).map (encodeSegment argument ++ ·)
  | '%' :: 's' :: rest, [] => fillTemplate rest []
  | c :: rest, arguments => (fillTemplate rest arguments).map (c :: ·)
  | [], _ => .ok []

namespace Endpoint

/-- The relative path with its arguments. -/
def path (endpoint : Endpoint) (arguments : List String) : Except Refusal (List Char) :=
  fillTemplate endpoint.template.toList arguments

/-- The address of an endpoint below a base. -/
def build (endpoint : Endpoint) (base : Url) (arguments : List String) : Except Failure Url := do
  let path ← (endpoint.path arguments).mapError .refused
  (base.join (String.ofList path)).mapError .address

/-- The address of an endpoint below a base, with a query unless that is empty. -/
def buildWith (endpoint : Endpoint) (base : Url) (query : List Char) (arguments : List String) :
    Except Failure Url := do
  let url ← endpoint.build base arguments
  let query := query.dropWhile (· == '?')
  return if query.isEmpty then url else url.withQuery query

end Endpoint

end ContentApi
