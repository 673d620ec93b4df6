import ContentApi.Http.Call
import ContentApi.Url.Endpoint

/-! Connections: where the service is, who asks, and the requests that go out in their name. -/

namespace ContentApi

/-- How a connection is set up. -/
structure Settings where
  /-- The address below which the service answers. -/
  baseUrl : String
  /-- The address below which the service takes uploads. -/
  uploadUrl : String
  /-- The token that shows who asks, empty for nobody. -/
  token : String
  /-- The name of the program that asks. -/
  userAgent : String
  /-- How many seconds an answer may take. -/
  timeout : Nat
  deriving DecidableEq

/-- The settings in the absence of any others. -/
def Settings.standard : Settings :=
  { baseUrl := "https://api.box.com/2.0/"
    uploadUrl := "https://upload.box.com/api/2.0/"
    token := ""
    userAgent := "box-sdk-rust/0.1.0"
    timeout := 60 }

/-- A connection to the service. -/
structure Connection where
  /-- The address below which the service answers. -/
  base : Url
  /-- The address below which the service takes uploads. -/
  uploadBase : Url
  /-- The token that shows who asks, empty for nobody. -/
  token : String
  /-- The name of the program that asks. -/
  userAgent : String
  /-- How many seconds an answer may take. -/
  timeout : Nat
  deriving DecidableEq

/-- Whether a text may stand in a header, which controls other than the tab may not. -/
def isSendable (text : String) : Bool :=
  text.toList.all fun c => c == '\t' || (0x20 ≤ c.toNat && c.toNat ≠ 0x7F)

/-- The text of a base, which ends in a slash so that paths are added to it. -/
def completedBase (text : String) : String :=
  if text.toList.getLast? = some '/' then text else text ++ "/"

/-- The address that the text of a base stands for. -/
def parseBase (text : String) : Except Failure Url :=
  (Url.parse (completedBase text)).mapError .address

/-- Sets up a connection. The token is looked at first, and the bases last. -/
def Settings.connect (s : Settings) : Except Failure Connection := do
  if !isSendable s.token then throw (.refused .unsendableToken)
  if !isSendable s.userAgent then throw .transport
  let base ← parseBase s.baseUrl
  let uploadBase ← parseBase s.uploadUrl
  return ⟨base, uploadBase, s.token, s.userAgent, s.timeout⟩

namespace Connection

/-- A connection with the standard settings, apart from its token. -/
def ofToken (token : String) : Except Failure Connection :=
  { Settings.standard with token := token }.connect

/-- A connection for display, which shows where it leads and hides who asks. -/
def describe (c : Connection) : String :=
  "BoxApiConnection \x7b base_url: " ++ quoted c.base.render ++ ", base_upload_url: " ++
    quoted c.uploadBase.render ++ ", .. \x7d"

/-- A request in the name of whoever asks. -/
def request (c : Connection) (method : Method) (url : Url) (body : RequestBody) : Request :=
  ⟨method, url, c.token, c.userAgent, none, body⟩

/-- Asks for what is at an address. -/
def get {α : Type} (c : Connection) (url : Url) (read : Response → Except Failure α) : Call α :=
  ⟨c.request .get url .empty, read⟩

/-- Sends a document to an address to have something made of it. -/
def post {α : Type} (c : Connection) (url : Url) (document : Json)
    (read : Response → Except Failure α) : Call α :=
  ⟨c.request .post url (.json document), read⟩

/-- Sends a document to an address to have what is there changed. -/
def put {α : Type} (c : Connection) (url : Url) (document : Json)
    (read : Response → Except Failure α) : Call α :=
  ⟨c.request .put url (.json document), read⟩

/-- Asks for what is at an address to be deleted. What is answered does not matter. -/
def delete (c : Connection) (url : Url) : Call Unit :=
  ⟨c.request .delete url .empty, fun _ => .ok ()⟩

/-- Asks for the bytes at an address, all of them or those of a range. -/
def download (c : Connection) (url : Url) (range : Option ByteRange) : Call Bytes :=
  ⟨{ c.request .get url .empty with range := range }, fun r => .ok r.body⟩

end Connection

end ContentApi
