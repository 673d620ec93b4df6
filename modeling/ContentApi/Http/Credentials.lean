import ContentApi.Text.Base64
import ContentApi.Url.Basic

/-! The name and the password in an address, by which a server is told who asks. -/

namespace ContentApi

/-- A name and a password that a server knows someone by. -/
structure Credentials where
  /-- The name. -/
  user : String
  /-- The password, if there is one. -/
  password : Option String
  deriving DecidableEq

/-- The words by which a server is told a name and a password. -/
def Credentials.basic (known : Credentials) : String :=
  "Basic " ++ String.ofList (base64Chars (utf8Bytes (known.user ++ ":" ++ known.password.getD "")))

/-- The name and the password of an authority, decoded, unless both are missing. Where the bytes of
the name are no text, the password does not count either. -/
def Authority.credentials? (a : Authority) : Option Credentials :=
  match textOfUtf8? (percentDecode a.user) with
  | none => none
  | some user =>
    let password :=
      if a.password.isEmpty then none else textOfUtf8? (percentDecode a.password)
    if user.isEmpty && password.isNone then none else some ⟨user, password⟩

namespace Url

/-- The name and the password in an address, if there are any that can be read. -/
def credentials? (url : Url) : Option Credentials :=
  url.authority.bind Authority.credentials?

/-- An address without a name and a password. -/
def withoutCredentials (url : Url) : Url :=
  { url with authority := url.authority.map fun a => { a with user := [], password := [] } }

end Url

end ContentApi
