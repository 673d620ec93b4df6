import ContentApi.Url.Host

/-! Addresses by their parts, and the text of an address. -/

namespace ContentApi

/-- Who is asked: a host, its port, and the name under which it is asked. -/
structure Authority where
  /-- The encoded user name, empty if there is none. -/
  user : List Char
  /-- The encoded password, empty if there is none. -/
  password : List Char
  /-- The host. -/
  host : Host
  /-- The port, unless it is the usual one. -/
  port : Option Nat
  deriving DecidableEq

/-- What is asked for: segments, each after a slash, or a text without structure. -/
inductive UrlPath where
  | segments (parts : List (List Char))
  | opaqueText (text : List Char)
  deriving DecidableEq

/-- An address by its encoded parts. -/
structure Url where
  /-- The scheme in lower case. -/
  scheme : List Char
  /-- The authority. -/
  authority : Option Authority
  /-- The path. -/
  path : UrlPath
  /-- The query, without its question mark. -/
  query : Option (List Char)
  /-- The fragment, without its number sign. -/
  fragment : Option (List Char)
  deriving DecidableEq

/-- The usual port of a scheme. -/
def usualPort (scheme : List Char) : Option Nat :=
  if scheme = "http".toList ∨ scheme = "ws".toList then some 80
  else if scheme = "https".toList ∨ scheme = "wss".toList then some 443
  else if scheme = "ftp".toList then some 21
  else none

/-- Whether a scheme is one of files. -/
def isFileScheme (scheme : List Char) : Bool :=
  scheme == "file".toList

/-- Whether a scheme is one whose addresses always have a path and take backslashes for slashes. -/
def isSpecialScheme (scheme : List Char) : Bool :=
  (usualPort scheme).isSome || isFileScheme scheme

/-- The text of segments, each after a slash. -/
def segmentsChars (parts : List (List Char)) : List Char :=
  parts.flatMap ('/' :: ·)

/-- The text of a path. -/
def UrlPath.chars : UrlPath → List Char
  | .segments parts => segmentsChars parts
  | .opaqueText text => text

/-- The text of an authority. -/
def Authority.chars (a : Authority) : List Char :=
  let user :=
    if a.user.isEmpty && a.password.isEmpty then []
    else a.user ++ (if a.password.isEmpty then [] else ':' :: a.password) ++ ['@']
  let port := match a.port with
    | some n => ':' :: Nat.toDigits 10 n
    | none => []
  user ++ a.host.chars ++ port

/-- The text of an address up to its path. -/
def Url.originChars (url : Url) : List Char :=
  let authority := match url.authority, url.path.chars with
    | some a, _ => '/' :: '/' :: a.chars
    -- Without an authority two slashes at the front of a path would be taken for one.
    | none, '/' :: '/' :: _ => ['/', '.']
    | none, _ => []
  url.scheme ++ ':' :: authority

/-- The text of an address without its fragment. -/
def Url.charsWithoutFragment (url : Url) : List Char :=
  let query := match url.query with
    | some q => '?' :: q
    | none => []
  url.originChars ++ url.path.chars ++ query

/-- The text of an address. -/
def Url.chars (url : Url) : List Char :=
  let fragment := match url.fragment with
    | some f => '#' :: f
    | none => []
  url.charsWithoutFragment ++ fragment

/-- The text of an address. -/
def Url.render (url : Url) : String :=
  String.ofList url.chars

/-- Whether an address is asked for in clear text, without a secured channel. -/
def Url.isPlain (url : Url) : Bool :=
  url.scheme == "http".toList

/-- An address with another query, in which everything is encoded that may not stand there. -/
def Url.withQuery (url : Url) (query : List Char) : Url :=
  let plain := query.filter fun c => !(c == '\t' || c == '\n' || c == '\r')
  { url with query := some (percentEncode (keepsInQuery (isSpecialScheme url.scheme)) plain) }

/-- An address with pairs added to its query in the way of a form. -/
def Url.addPairs (url : Url) (pairs : List (String × String)) : Url :=
  let present := url.query.getD []
  let divider := if present.isEmpty then [] else ['&']
  { url with query := some (present ++ divider ++ formChars pairs) }

end ContentApi
