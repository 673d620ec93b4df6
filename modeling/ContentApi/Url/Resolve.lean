import ContentApi.Url.Basic

/-! The reading of texts as addresses, on their own or relative to another address. -/

namespace ContentApi

/-- A text without the blanks and controls at its ends and without tabs and line breaks. -/
def cleanedUrlChars (text : String) : List Char :=
  -- Only the ends lose blanks, while tabs and line breaks are lost everywhere.
  let isEdge := fun (c : Char) => decide (c.toNat ≤ 0x20)
  let trimmed := ((text.toList.dropWhile isEdge).reverse.dropWhile isEdge).reverse
  trimmed.filter fun c => !(c == '\t' || c == '\n' || c == '\r')

/-- Whether a character may stand in a scheme after its first letter. -/
def isSchemeChar (c : Char) : Bool :=
  isAsciiAlnum c || c == '+' || c == '-' || c == '.'

/-- The scheme at the front of a text, in lower case, and the text after its colon. -/
def splitScheme? (cs : List Char) : Option (List Char × List Char) :=
  match cs with
  | [] => none
  | c :: _ =>
    let scheme := cs.takeWhile isSchemeChar
    match cs.drop scheme.length with
    | ':' :: rest => if c.isAlpha then some (scheme.map Char.toLower, rest) else none
    | _ => none

/-- A path with its query and its fragment, not encoded yet. -/
structure UrlTail where
  /-- The text before the query. -/
  path : List Char
  /-- The query, without its question mark. -/
  query : Option (List Char)
  /-- The fragment, without its number sign. -/
  fragment : Option (List Char)

/-- The parts of a text between its question mark and its number sign. -/
def UrlTail.of (cs : List Char) : UrlTail :=
  -- A question mark behind the number sign belongs to the fragment.
  let front := cs.takeWhile (· ≠ '#')
  let path := front.takeWhile (· ≠ '?')
  let after := fun (text : List Char) (taken : Nat) =>
    match text.drop taken with
    | [] => none
    | _ :: rest => some rest
  ⟨path, after front path.length, after cs front.length⟩

/-- A query encoded in the way of a scheme. -/
def encodeQuery (scheme query : List Char) : List Char :=
  percentEncode (keepsInQuery (isSpecialScheme scheme)) query

/-- A fragment encoded. -/
def encodeFragment (fragment : List Char) : List Char :=
  percentEncode keepsInFragment fragment

/-- Whether a character ends a segment. -/
def isSlash (special : Bool) (c : Char) : Bool :=
  c == '/' || (special && c == '\\')

/-- A segment in lower case with encoded points decoded, by which points are recognised. -/
def dotForm : List Char → List Char
  | '%' :: '2' :: 'e' :: rest => '.' :: dotForm rest
  | '%' :: '2' :: 'E' :: rest => '.' :: dotForm rest
  | c :: rest => c :: dotForm rest
  | [] => []

/-- Whether a segment is a letter and a colon or a bar, which names a drive in an address of files.
-/
def isDriveLetter : List Char → Bool
  | [c, d] => c.isAlpha && (d == ':' || d == '|')
  | _ => false

/-- The segments, last first, without their last one. A drive alone stays. -/
def dropLastSegment (file : Bool) (reversed : List (List Char)) : List (List Char) :=
  match reversed with
  | [drive] => if file && isDriveLetter drive then [drive] else []
  | _ :: rest => rest
  | [] => []

/-- Adds pieces of a path to the segments before them, kept last first. A single point stands for
no segment and two points take one away. -/
def addSegments (file : Bool) (reversed : List (List Char)) : List (List Char) → List (List Char)
  | [] => reversed
  | piece :: rest =>
    let isLast := rest.isEmpty
    -- A step at the end of a path leaves an empty segment behind, for the directory that it leads
    -- to.
    let next :=
      if dotForm piece = ['.', '.'] then
        let shorter := dropLastSegment file reversed
        if isLast then [] :: shorter else shorter
      else if dotForm piece = ['.'] then
        if isLast then [] :: reversed else reversed
      else
        let encoded := percentEncode keepsInPath piece
        -- A drive is written with a colon.
        let segment := match reversed, encoded with
          | [], [c, '|'] => if file && c.isAlpha then [c, ':'] else encoded
          | _, _ => encoded
        segment :: reversed
    addSegments file next rest

/-- The segments that a path adds to those before it. -/
def pathSegments (scheme : List Char) (before : List (List Char)) (path : List Char) :
    List (List Char) :=
  let file := isFileScheme scheme
  let special := isSpecialScheme scheme
  let segments := (addSegments file before.reverse (splitChars (isSlash special) path)).reverse
  if file then
    -- An address of files does not begin with empty segments.
    match segments.dropWhile List.isEmpty with
    | [] => [[]]
    | kept => kept
  else segments

/-- The segments of a path that starts after an authority. -/
def rootedSegments (scheme path : List Char) : List (List Char) :=
  let special := isSpecialScheme scheme
  match path with
  | [] => if special then [[]] else []
  -- The slash behind the authority starts the first segment and is none itself.
  | c :: rest => pathSegments scheme [] (if isSlash special c then rest else path)

/-- The port that digits stand for, unless it is the usual one. -/
def portOf (scheme digits : List Char) : Except UrlFault (Option Nat) :=
  if digits.isEmpty then .ok none
  else if !digits.all Char.isDigit then .error .invalidPort
  else
    -- Larger numbers are cut off where they are refused anyway.
    let port : Nat := digits.foldl (fun n c => min (10 * n + (c.toNat - 48)) 100000) 0
    if 65535 < port then .error .invalidPort
    else .ok (if usualPort scheme = some port then none else some port)

/-- The text of a host up to its port; colons between brackets belong to the host. -/
def hostPart (inBrackets : Bool) : List Char → List Char
  | [] => []
  | c :: rest =>
    if c = ':' ∧ !inBrackets then []
    else c :: hostPart (if c = '[' then true else if c = ']' then false else inBrackets) rest

/-- The texts before and after the last at sign, if there is one. -/
def splitLastAt (cs : List Char) : Option (List Char × List Char) :=
  let after := (cs.reverse.takeWhile (· ≠ '@')).reverse
  if after.length < cs.length then some (cs.take (cs.length - after.length - 1), after) else none

/-- The authority that a text is, which stands at the end of an address or has more after it. -/
def authorityOf (scheme cs : List Char) (isLast : Bool) : Except UrlFault Authority := do
  let special := isSpecialScheme scheme
  let (userInfo, server, named) := match splitLastAt cs with
    | some (userInfo, server) => (userInfo, server, true)
    | none => ([], cs, false)
  -- A password follows the first colon, and may hold more of them.
  let user := userInfo.takeWhile (· ≠ ':')
  let password := userInfo.drop (user.length + 1)
  let hostText := hostPart false server
  let portText := server.drop hostText.length
  -- Nobody can be named without a host, and an at sign alone names nobody.
  let isNamed := !user.isEmpty || !password.isEmpty || (named && userInfo.isEmpty && !isLast)
  if hostText.isEmpty ∧ (special ∨ isNamed ∨ !portText.isEmpty) then
    throw .emptyHost
  let host ← if special then Host.ofSpecial hostText else Host.ofOpaque hostText
  let port ← portOf scheme (portText.drop 1)
  return ⟨percentEncode keepsInUser user, percentEncode keepsInUser password, host, port⟩

/-- The address whose authority starts a text. -/
def urlOfAuthority (scheme cs : List Char) : Except UrlFault Url := do
  let special := isSpecialScheme scheme
  let authority := cs.takeWhile fun c => !(isSlash special c || c == '?' || c == '#')
  let after := cs.drop authority.length
  let tail := UrlTail.of after
  -- Whether something follows the authority matters to one that names nobody.
  let parsed ← authorityOf scheme authority after.isEmpty
  return ⟨scheme, some parsed, .segments (rootedSegments scheme tail.path),
    tail.query.map (encodeQuery scheme), tail.fragment.map encodeFragment⟩

/-- The authority of an address of files without a host. -/
def localAuthority : Authority :=
  ⟨[], [], .domain "", none⟩

/-- The authority of an address of files; a drive and the machine itself are no hosts. -/
def fileAuthority (cs : List Char) : Except UrlFault Authority := do
  if cs.isEmpty ∨ isDriveLetter cs then return localAuthority
  let host ← Host.ofSpecial cs
  return if host = .domain "localhost" then localAuthority else ⟨[], [], host, none⟩

/-- The segments of an address without the last one. -/
def Url.directory (url : Url) : List (List Char) :=
  match url.path with
  | .segments parts => (dropLastSegment (isFileScheme url.scheme) parts.reverse).reverse
  | .opaqueText _ => []

/-- The address with the query and the fragment of a tail. -/
def Url.withTail (url : Url) (tail : UrlTail) : Url :=
  { url with
    query := tail.query.map (encodeQuery url.scheme)
    fragment := tail.fragment.map encodeFragment }

/-- The address that a path, a query or a fragment leads to from a base. -/
def Url.follow (base : Url) (cs : List Char) : Url :=
  let tail := UrlTail.of cs
  if tail.path.isEmpty then
    -- Without a path, a query replaces the one of the base, and a fragment leaves that alone.
    match tail.query with
    | some _ => base.withTail tail
    | none => { base with fragment := tail.fragment.map encodeFragment }
  else
    let segments := match tail.path with
      | c :: rest =>
        -- Here a backslash counts as a slash under any scheme.
        if isSlash true c then pathSegments base.scheme [] rest
        else pathSegments base.scheme base.directory tail.path
      | [] => []
    { base with path := .segments segments }.withTail tail

/-- The address of a file that a text after the scheme stands for. -/
def fileUrl (base : Option Url) (cs : List Char) : Except UrlFault Url :=
  let scheme := "file".toList
  let fresh : Url := ⟨scheme, some localAuthority, .segments [[]], none, none⟩
  match cs with
  | a :: b :: rest =>
    if isSlash true a && isSlash true b then do
      let name := rest.takeWhile fun c => !(isSlash true c || c == '?' || c == '#')
      let authority ← fileAuthority name
      -- A drive in the place of a host belongs to the path.
      let tail := UrlTail.of (if isDriveLetter name then rest else rest.drop name.length)
      return { fresh with
        authority := some authority
        path := .segments (rootedSegments scheme tail.path) }.withTail tail
    else .ok ((base.getD fresh).follow cs)
  | cs => .ok ((base.getD fresh).follow cs)

/-- The address that a text after its scheme stands for. -/
def urlAfterScheme (base : Option Url) (scheme cs : List Char) : Except UrlFault Url :=
  if isFileScheme scheme then
    fileUrl (base.filter fun url => isFileScheme url.scheme) cs
  else if isSpecialScheme scheme then
    let slashes := (cs.takeWhile (isSlash true)).length
    -- One slash or none after the scheme of the base leads on from the base.
    match base.filter fun url => url.scheme = scheme && slashes < 2 with
    | some url => .ok (url.follow cs)
    | none => urlOfAuthority scheme (cs.drop slashes)
  else
    match cs with
    -- Under any other scheme only two slashes announce an authority.
    | '/' :: '/' :: rest => urlOfAuthority scheme rest
    | cs =>
      let tail := UrlTail.of cs
      let path := match tail.path with
        | '/' :: rest => UrlPath.segments (pathSegments scheme [] rest)
        | text => .opaqueText (percentEncode isPlainAscii text)
      .ok (Url.withTail ⟨scheme, none, path, none, none⟩ tail)

/-- The address that a text without a scheme leads to from a base. -/
def Url.resolveRelative (base : Url) (cs : List Char) : Except UrlFault Url :=
  match base.path with
  -- From a text without structure only a fragment leads on.
  | .opaqueText _ =>
    match cs with
    | '#' :: fragment => .ok { base with fragment := some (encodeFragment fragment) }
    | _ => .error .relativeToOpaque
  | .segments _ =>
    if isFileScheme base.scheme then fileUrl (some base) cs
    else
      match cs with
      | '/' :: '/' :: rest => urlOfAuthority base.scheme rest
      | a :: b :: rest =>
        -- Where a backslash is among them, all slashes stand before the authority.
        if isSlash true a && isSlash true b then
          urlOfAuthority base.scheme (rest.dropWhile (isSlash true))
        else .ok (base.follow cs)
      | cs => .ok (base.follow cs)

/-- The address that a text stands for, on its own or relative to a base. -/
def Url.resolve (base : Option Url) (text : String) : Except UrlFault Url :=
  let cs := cleanedUrlChars text
  match splitScheme? cs with
  | some (scheme, rest) => urlAfterScheme base scheme rest
  | none =>
    match base with
    | some url => url.resolveRelative cs
    | none => .error .relativeWithoutBase

/-- The address that a text stands for on its own. -/
def Url.parse (text : String) : Except UrlFault Url :=
  Url.resolve none text

/-- The address that a text leads to from a base. -/
def Url.join (base : Url) (text : String) : Except UrlFault Url :=
  Url.resolve (some base) text

end ContentApi
