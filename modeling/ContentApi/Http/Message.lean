import ContentApi.Http.Credentials
import ContentApi.Json.Printer

/-! Requests and responses, and the texts of statuses. -/

namespace ContentApi

/-- What a request asks a server to do. -/
inductive Method where
  | get
  | post
  | put
  | delete
  deriving DecidableEq

/-- The name of a method. -/
def Method.name : Method → String
  | .get => "GET"
  | .post => "POST"
  | .put => "PUT"
  | .delete => "DELETE"

/-- A part of a body that has several. -/
structure FormPart where
  /-- The name of the part. -/
  name : String
  /-- The name of the file that the part holds, if it holds one. -/
  fileName : Option String
  /-- The content. -/
  content : Bytes
  deriving DecidableEq

/-- What a request carries. -/
inductive RequestBody where
  | empty
  | json (value : Json)
  | patch (text : String)
  | form (parts : List FormPart)
  deriving DecidableEq

/-- The bytes that are asked for, the last of which may be left open. -/
structure ByteRange where
  /-- The first byte. -/
  first : Nat
  /-- The last byte. -/
  last : Option Nat
  deriving DecidableEq

/-- A request to a server. -/
structure Request where
  /-- What is asked for. -/
  method : Method
  /-- The address, which may hold a name and a password. -/
  url : Url
  /-- The token that shows who asks, unless it is empty or the address shows that. -/
  token : String
  /-- The name of the program that asks. -/
  userAgent : String
  /-- The bytes that are asked for, unless it is all of them. -/
  range : Option ByteRange
  /-- What the request carries. -/
  body : RequestBody
  deriving DecidableEq

/-- The text of a range. -/
def ByteRange.render (range : ByteRange) : String :=
  "bytes=" ++ toString range.first ++ "-" ++
    (match range.last with
      | some n => toString n
      | none => "")

/-- The type of what a request carries, whose parts are divided by a boundary if it has several. -/
def RequestBody.contentType? (boundary : String) : RequestBody → Option String
  | .empty => none
  | .json _ => some "application/json"
  | .patch _ => some "application/json-patch+json"
  | .form _ => some ("multipart/form-data; boundary=" ++ boundary)

namespace Request

/-- The address that a request goes to, out of which a name and a password are taken. -/
def target (r : Request) : Url :=
  if r.url.credentials?.isSome then r.url.withoutCredentials else r.url

/-- The words that show who asks: the name and the password in the address, and else the token. -/
def authorization? (r : Request) : Option String :=
  match r.url.credentials? with
  | some known => some known.basic
  | none => if r.token.isEmpty then none else some ("Bearer " ++ r.token)

/-- The headers of a request by name that do not show who asks, given the boundary that divides a
body of several parts. -/
def otherHeaders (r : Request) (boundary : String) : List (String × String) :=
  let contentType := match r.body.contentType? boundary with
    | some type => [("content-type", type)]
    | none => []
  let range := match r.range with
    | some range => [("range", range.render)]
    | none => []
  contentType ++ range ++ [("user-agent", r.userAgent)]

/-- The headers of a request by name. -/
def headers (r : Request) (boundary : String) : List (String × String) :=
  r.authorization?.toList.map (fun words => ("authorization", words)) ++ r.otherHeaders boundary

end Request

/-- The text that a request carries, if it carries one text. -/
def RequestBody.text? : RequestBody → Option String
  | .json value => some value.compact
  | .patch text => some text
  | .empty | .form _ => none

/-- What a server answers. -/
structure Response where
  /-- The status. -/
  status : Nat
  /-- What the answer carries. -/
  body : Bytes
  deriving DecidableEq

/-- Whether an answer is one of success. -/
def Response.isSuccess (r : Response) : Bool :=
  200 ≤ r.status && r.status ≤ 299

/-- The text that an answer carries. -/
def Response.text (r : Response) : String := textOfUtf8 r.body

/-- The words for a status, if they are fixed. -/
def reasonPhrase? : Nat → Option String
  | 100 => some "Continue"
  | 101 => some "Switching Protocols"
  | 102 => some "Processing"
  | 103 => some "Early Hints"
  | 200 => some "OK"
  | 201 => some "Created"
  | 202 => some "Accepted"
  | 203 => some "Non Authoritative Information"
  | 204 => some "No Content"
  | 205 => some "Reset Content"
  | 206 => some "Partial Content"
  | 207 => some "Multi-Status"
  | 208 => some "Already Reported"
  | 226 => some "IM Used"
  | 300 => some "Multiple Choices"
  | 301 => some "Moved Permanently"
  | 302 => some "Found"
  | 303 => some "See Other"
  | 304 => some "Not Modified"
  | 305 => some "Use Proxy"
  | 307 => some "Temporary Redirect"
  | 308 => some "Permanent Redirect"
  | 400 => some "Bad Request"
  | 401 => some "Unauthorized"
  | 402 => some "Payment Required"
  | 403 => some "Forbidden"
  | 404 => some "Not Found"
  | 405 => some "Method Not Allowed"
  | 406 => some "Not Acceptable"
  | 407 => some "Proxy Authentication Required"
  | 408 => some "Request Timeout"
  | 409 => some "Conflict"
  | 410 => some "Gone"
  | 411 => some "Length Required"
  | 412 => some "Precondition Failed"
  | 413 => some "Payload Too Large"
  | 414 => some "URI Too Long"
  | 415 => some "Unsupported Media Type"
  | 416 => some "Range Not Satisfiable"
  | 417 => some "Expectation Failed"
  | 418 => some "I'm a teapot"
  | 421 => some "Misdirected Request"
  | 422 => some "Unprocessable Entity"
  | 423 => some "Locked"
  | 424 => some "Failed Dependency"
  | 425 => some "Too Early"
  | 426 => some "Upgrade Required"
  | 428 => some "Precondition Required"
  | 429 => some "Too Many Requests"
  | 431 => some "Request Header Fields Too Large"
  | 451 => some "Unavailable For Legal Reasons"
  | 500 => some "Internal Server Error"
  | 501 => some "Not Implemented"
  | 502 => some "Bad Gateway"
  | 503 => some "Service Unavailable"
  | 504 => some "Gateway Timeout"
  | 505 => some "HTTP Version Not Supported"
  | 506 => some "Variant Also Negotiates"
  | 507 => some "Insufficient Storage"
  | 508 => some "Loop Detected"
  | 510 => some "Not Extended"
  | 511 => some "Network Authentication Required"
  | _ => none

/-- The text of a status. -/
def statusText (status : Nat) : String :=
  toString status ++ " " ++ (reasonPhrase? status).getD "<unknown status code>"

end ContentApi
