import ContentApi.Url.Form

/-! Hosts: names, and numeric addresses of both lengths. -/

namespace ContentApi

/-- Why a text is no address. -/
inductive UrlFault where
  | relativeWithoutBase
  | relativeToOpaque
  | emptyHost
  | invalidPort
  | invalidAddress6
  | invalidAddress4
  | invalidDomain
  | invalidDomainCharacter
  deriving DecidableEq

/-- The words for why a text is no address. -/
def UrlFault.message : UrlFault → String
  | .relativeWithoutBase => "relative URL without a base"
  | .relativeToOpaque => "relative URL with a cannot-be-a-base base"
  | .emptyHost => "empty host"
  | .invalidPort => "invalid port number"
  | .invalidAddress6 => "invalid IPv6 address"
  | .invalidAddress4 => "invalid IPv4 address"
  | .invalidDomain => "invalid international domain name"
  | .invalidDomainCharacter => "invalid domain character"

/-- Where a server is found. -/
inductive Host where
  | domain (name : String)
  | address4 (value : Nat)
  | address6 (pieces : List Nat)
  deriving DecidableEq

/-- A numeral whose base is told by its first characters, or nothing if it is none. -/
def addressNumeral? (cs : List Char) : Option Nat :=
  -- A digit that the base does not have makes the whole no numeral.
  let read := fun (base : Nat) (digits : List Char) =>
    digits.foldl (fun (n : Option Nat) c =>
      n.bind fun n => (hexValue? c).bind fun d => if d < base then some (base * n + d) else none)
      (some 0)
  match cs with
  | [] => none
  | '0' :: 'x' :: digits => read 16 digits
  | '0' :: 'X' :: digits => read 16 digits
  | '0' :: d :: digits => read 8 (d :: digits)
  | digits => read 10 digits

/-- The labels of a name, without the empty one that a last point leaves. -/
def hostLabels (cs : List Char) : List (List Char) :=
  let labels := splitChars (· == '.') cs
  if labels.length > 1 ∧ labels.getLast? = some [] then labels.dropLast else labels

/-- Whether a name ends in a number, so that it must be a numeric address. -/
def endsInNumber (cs : List Char) : Bool :=
  match (hostLabels cs).getLast? with
  | none => false
  | some label =>
    (!label.isEmpty && label.all Char.isDigit) ||
      ((label.take 2 == ['0', 'x'] || label.take 2 == ['0', 'X']) &&
        (label.drop 2).all fun c => (hexValue? c).isSome)

/-- The value of an address of up to four numbers, of which the last fills all places left. -/
def address4Of? (cs : List Char) : Option Nat := do
  let numbers ← (hostLabels cs).mapM addressNumeral?
  let last ← numbers.getLast?
  let leading := numbers.dropLast
  if 3 < leading.length ∨ leading.any (255 < ·) ∨ Nat.pow 256 (4 - leading.length) ≤ last then none
  else
    let high := leading.foldl (fun n d => 256 * n + d) 0
    return high * Nat.pow 256 (4 - leading.length) + last

/-- The value of one group of up to four hexadecimal digits. -/
def addressGroup? (cs : List Char) : Option Nat :=
  if cs.isEmpty ∨ 4 < cs.length then none
  else cs.foldl (fun n c => n.bind fun n => (hexValue? c).map fun d => 16 * n + d) (some 0)

/-- The two groups that four plain decimal numbers stand for. -/
def dottedGroups? (cs : List Char) : Option (List Nat) := do
  let parts := splitChars (· == '.') cs
  let numbers ← parts.mapM fun part =>
    -- A zero at the front stands alone.
    if part.isEmpty ∨ 3 < part.length ∨ !part.all Char.isDigit ∨
        (part.head? = some '0' ∧ 1 < part.length) then none
    else
      let n : Nat := part.foldl (fun n c => 10 * n + (c.toNat - 48)) 0
      if n ≤ 255 then some n else none
  match numbers with
  | [a, b, c, d] => some [256 * a + b, 256 * c + d]
  | _ => none

/-- The groups between colons, the last of which may be four decimal numbers. -/
def addressGroups? (cs : List Char) : Option (List Nat) :=
  if cs.isEmpty then some []
  else
    let parts := splitChars (· == ':') cs
    match parts.getLast? with
    | none => none
    | some last => do
      let leading ← parts.dropLast.mapM addressGroup?
      let tail ← if last.contains '.' then dottedGroups? last else (addressGroup? last).map ([·])
      return leading ++ tail

/-- The text before and after the first pair of colons, if there is one. -/
def splitAtDoubleColon : List Char → Option (List Char × List Char)
  | ':' :: ':' :: rest => some ([], rest)
  | c :: rest => (splitAtDoubleColon rest).map fun parts => (c :: parts.1, parts.2)
  | [] => none

/-- The eight groups of an address, in which a pair of colons stands for groups of zero. -/
def address6Of? (cs : List Char) : Option (List Nat) := do
  match splitAtDoubleColon cs with
  | none =>
    let groups ← addressGroups? cs
    if groups.length = 8 then return groups else none
  | some (front, back) =>
    if front.contains '.' then none
    else
      let first ← addressGroups? front
      let second ← addressGroups? back
      -- The two colons stand for one group at least.
      if first.length + second.length ≤ 7 then
        return first ++ List.replicate (8 - first.length - second.length) 0 ++ second
      else none

/-- Whether a character may not stand in a name. -/
def isForbiddenInDomain (c : Char) : Bool :=
  c.toNat ≤ 0x20 || c.toNat == 0x7F ||
    ['#', '/', ':', '<', '>', '?', '@', '[', '\\', ']', '^', '|', '%'].contains c

/-- Whether a character may not stand in a name that is kept as it is written. -/
def isForbiddenInOpaqueHost (c : Char) : Bool :=
  c == '\x00' || c == ' ' ||
    ['#', '/', ':', '<', '>', '?', '@', '[', '\\', ']', '^', '|'].contains c

/-- The address between brackets. -/
def bracketedHost (cs : List Char) : Except UrlFault Host :=
  if cs.getLast? = some ']' then
    match address6Of? cs.dropLast with
    | some pieces => .ok (.address6 pieces)
    | none => .error .invalidAddress6
  else .error .invalidAddress6

/-- The host of a web address, whose name is kept in lower case.

The form that a name outside ASCII takes in ASCII (IDNA) is left out, as is what that form refuses,
such as a label that begins with `xn--` and encodes nothing: such a name is kept as it is written.
-/
def Host.ofSpecial (cs : List Char) : Except UrlFault Host :=
  match cs with
  | '[' :: rest => bracketedHost rest
  | cs =>
    -- Decoding comes first, so that encoded characters are no way around the test.
    let name := (textOfUtf8 (percentDecode cs)).toList.map Char.toLower
    if name.any isForbiddenInDomain then .error .invalidDomain
    else if name.isEmpty then .error .emptyHost
    else if endsInNumber name then
      match address4Of? name with
      | some value => .ok (.address4 value)
      | none => .error .invalidAddress4
    else .ok (.domain (String.ofList name))

/-- The host of any other address, whose name is kept as it is written. -/
def Host.ofOpaque (cs : List Char) : Except UrlFault Host :=
  match cs with
  | '[' :: rest => bracketedHost rest
  | cs =>
    if cs.any isForbiddenInOpaqueHost then .error .invalidDomainCharacter
    else .ok (.domain (String.ofList (percentEncode isPlainAscii cs)))

/-- The length of the run of zeros at the front of some groups. -/
def zeroRun (groups : List Nat) : Nat :=
  (groups.takeWhile (· == 0)).length

/-- The place and the length of the first of the longest runs of two or more zero groups. -/
def longestZeroRun (groups : List Nat) : Option (Nat × Nat) :=
  (List.range groups.length).foldl (fun best place =>
    let run := zeroRun (groups.drop place)
    -- One zero alone is not worth the colons.
    let least := match best with
      | some (_, length) => length
      | none => 1
    if least < run then some (place, run) else best) none

/-- Groups written in hexadecimal with colons between them. -/
def groupsChars (groups : List Nat) : List Char :=
  [':'].intercalate (groups.map natHexChars)

/-- The text of a host. -/
def Host.chars : Host → List Char
  | .domain name => name.toList
  | .address4 value =>
    ['.'].intercalate (([24, 16, 8, 0].map fun shift => value / Nat.pow 2 shift % 256).map
      (Nat.toDigits 10))
  | .address6 pieces =>
    let body := match longestZeroRun pieces with
      | none => groupsChars pieces
      | some (place, run) =>
        groupsChars (pieces.take place) ++ [':', ':'] ++ groupsChars (pieces.drop (place + run))
    '[' :: (body ++ [']'])

end ContentApi
