import ContentApi.Failure
import ContentApi.Schema.Grants
import ContentApi.Schema.Vocabulary

/-! The values that members of documents have, apart from records and lists. -/

namespace ContentApi

/-- A type of values that hold no other typed values. -/
inductive Leaf where
  | text
  | flag
  | count
  | word (v : Vocabulary)
  /-- An instant, which null and the empty text stand for the absence of. -/
  | instant
  /-- A number of days, for which anything that is not one counts as absent. -/
  | days
  /-- A set of permissions, sent as flags by name. -/
  | grants
  | untyped
  /-- Members of any names. -/
  | properties

/-- The values of a leaf. -/
abbrev Leaf.Carrier : Leaf → Type
  | .text => String
  | .flag => Bool
  | .count => UInt64
  | .word v => Word v
  | .instant => Option Timestamp
  | .days => Option UInt32
  | .grants => Option Grants
  | .untyped => Json
  | .properties => Members

instance : (l : Leaf) → DecidableEq l.Carrier
  | .text => inferInstanceAs (DecidableEq String)
  | .flag => inferInstanceAs (DecidableEq Bool)
  | .count => inferInstanceAs (DecidableEq UInt64)
  | .word v => inferInstanceAs (DecidableEq (Word v))
  | .instant => inferInstanceAs (DecidableEq (Option Timestamp))
  | .days => inferInstanceAs (DecidableEq (Option UInt32))
  | .grants => inferInstanceAs (DecidableEq (Option Grants))
  | .untyped => inferInstanceAs (DecidableEq Json)
  | .properties => inferInstanceAs (DecidableEq (List (String × Json)))

/-- The value of a member that is not there. -/
def Leaf.absent : (l : Leaf) → l.Carrier
  | .text => ""
  | .flag => false
  | .count => 0
  | .word v => Word.unknown v
  | .instant => none
  | .days => none
  | .grants => none
  | .untyped => .null
  | .properties => []

/-- The flags of a set of permissions, in ascending order of their names. -/
def Grants.toMembers (g : Grants) : Members :=
  Members.sorted (g.toList.map fun p => (p.name, .flag true))

/-- The document that a value is sent as, or nothing if the member is left out. -/
def Leaf.write : (l : Leaf) → l.Carrier → Option Json
  | .text, s => some (.text s)
  | .flag, b => some (.flag b)
  | .count, n => some (.number (.integer n.toNat))
  | .word _, w => some (.text w.text)
  | .instant, t => t.map fun t => .text t.format
  | .days, n => n.map fun n => .number (.integer n.toNat)
  | .grants, g => g.map fun g => .object g.toMembers
  | .untyped, j => some j
  | .properties, ms => some (.object ms)

/-- How a document is read: from a text with some room for nesting, from a value, or from a value
that was set aside while the rest of its object was read. -/
inductive Mode where
  | text (room : Nat)
  | value
  | aside

/-- The limit to nesting. -/
def Mode.room : Mode → Room
  | .text n => some n
  | _ => none

/-- The mode inside an array or object, which breaks where no room is left. -/
def Mode.enter : Mode → Except Fault Mode
  -- Only texts have a limit, as the room of a value was used up when it was read.
  | .text n => if n ≤ 1 then .error (.cut .malformed) else .ok (.text (n - 1))
  | mode => .ok mode

/-- The fault of a document that is not of the kind expected, or is broken. -/
def Doc.mismatch {α : Type} (doc : Doc) (expected : String) : Except Fault α :=
  match doc.unexpected with
  | .ok found => .error (.mismatch (.kind found expected))
  | .error cut => .error (.cut cut)

/-- Reads a text. -/
def readText (doc : Doc) : Except Fault String :=
  match doc with
  | .text (some s) => .ok s
  | doc => doc.mismatch "a string"

/-- Reads a flag. -/
def readFlag (doc : Doc) : Except Fault Bool :=
  match doc with
  | .flag b => .ok b
  | doc => doc.mismatch "a boolean"

/-- Reads a count, for which a number below zero has the wrong value and a double the wrong kind. -/
def readCount (doc : Doc) : Except Fault UInt64 :=
  match doc with
  | .number (some (.integer n)) =>
    if 0 ≤ n ∧ n < Nat.pow 2 64 then .ok (UInt64.ofNat n.toNat)
    else .error (.mismatch (.value (.number (.integer n)) "u64"))
  | doc => doc.mismatch "u64"

/-- Reads the null that stands beside a word written as a member. Set aside, an empty object does
too. -/
def readUnit (mode : Mode) (doc : Doc) : Except Fault Unit :=
  match mode, doc with
  | _, .null => .ok ()
  | .aside, .object (.nil _) => .ok ()
  | _, doc => doc.mismatch "unit"

/-- Reads a word written as the only member of an object in a text. -/
def readWordMember (v : Vocabulary) : DocMembers → Except Fault (Word v)
  | .nil .closed => .error (.cut .malformed)
  -- Where the name of the word is missing, a value that stands there is named instead.
  | .nil (.cut read _ _ found) =>
    match found with
    | some u => .error (.mismatch (.kind u "variant identifier"))
    | none => .error (.cut read)
  | .nil (.afterName none _) => .error (.cut .malformed)
  | .nil (.afterName (some _) next) => .error (.cut next)
  | .cons none _ _ => .error (.cut .malformed)
  | .cons (some name) value rest => do
    readUnit (.text 0) value
    -- Nothing but the closing brace may follow the one member.
    match rest with
    | .nil .closed => return Word.ofText v name
    | .nil (.cut read _ false _) => .error (.cut read)
    | _ => .error (.cut .malformed)

/-- Reads a word, written as a text or as an object whose only member has it for a name. -/
def readWord (v : Vocabulary) (mode : Mode) (doc : Doc) : Except Fault (Word v) :=
  match doc with
  | .text (some s) => .ok (Word.ofText v s)
  | .text none => .error (.cut .malformed)
  | .broken read _ => .error (.cut read)
  | .object members =>
    match mode with
    | .text _ => do
      discard mode.enter
      readWordMember v members
    | mode =>
      match members with
      -- A value is an object as a whole, so it is seen that there is one member.
      | .cons (some name) value (.nil _) => do
        readUnit mode value
        return Word.ofText v name
      | _ => .error (.mismatch (.value .map "map with a single key"))
  | doc =>
    match mode with
    -- A text shows by its first character that no word comes.
    | .text _ => .error (.cut .malformed)
    | .value => doc.mismatch "string or map"
    | .aside => doc.mismatch "variant identifier"

/-- Reads an instant. -/
def readInstant (doc : Doc) : Except Fault (Option Timestamp) :=
  match doc with
  | .null => .ok none
  | doc => do
    let text ← readText doc
    -- The service sends an empty text for an instant that is not there.
    if text.isEmpty then return none
    match Timestamp.parse text with
    | .ok t => return some t
    | .error fault => .error (.mismatch (.date fault))

/-- The number below 2 ^ 32 that digits are, with or without a plus sign. -/
def daysOfChars? (cs : List Char) : Option UInt32 :=
  let digits := match cs with
    | '+' :: rest => rest
    | cs => cs
  if digits.isEmpty ∨ !digits.all Char.isDigit then none
  else
    let n := digitsValue digits
    if n < Nat.pow 2 32 then some (UInt32.ofNat n) else none

/-- The number of days that a value is. -/
def daysOf? : Json → Option UInt32
  | .number (.integer n) => if 0 ≤ n ∧ n < Nat.pow 2 32 then some (UInt32.ofNat n.toNat) else none
  | .text s => daysOfChars? s.toList
  | _ => none

/-- Reads a number of days. Only a broken text is a fault. -/
def readDays (mode : Mode) (doc : Doc) : Except Fault (Option UInt32) :=
  match doc with
  -- A number that is too great for a double is no number of days, and no fault.
  | .number none => .ok none
  | doc =>
    match doc.toJson mode.room with
    | .ok value => .ok (daysOf? value)
    | .error cut => .error (.cut cut)

/-- Reads flags by name into a set, where the last flag of each name counts. -/
def readGrantMembers (g : Grants) : DocMembers → Except Fault Grants
  | .nil stop =>
    match stop.read with
    | .ok _ => .ok g
    | .error cut => .error (.cut cut)
  | .cons none _ _ => .error (.cut .malformed)
  | .cons (some name) value rest => do
    let granted ← match value with
      | .null => pure false
      | value => readFlag value
    -- Names that are no permission of a folder are read and dropped.
    match FolderPermission.ofName? name with
    | some p => readGrantMembers (g.set p granted) rest
    | none => readGrantMembers g rest

/-- Reads a set of permissions. -/
def readGrants (mode : Mode) (doc : Doc) : Except Fault (Option Grants) :=
  match doc with
  | .null => .ok none
  | .object members => do
    discard mode.enter
    return some (← readGrantMembers Grants.none members)
  | doc => doc.mismatch "a map"

/-- Reads a document of any type. -/
def readUntyped (mode : Mode) (doc : Doc) : Except Fault Json :=
  (doc.toJson mode.room).mapError .cut

/-- Reads members of any names, of which the last of each name is kept. -/
def readProperties (mode : Mode) (doc : Doc) : Except Fault Members :=
  match doc with
  | .object members => do
    let inner ← mode.enter
    (members.toJson inner.room []).mapError .cut
  | doc => doc.mismatch "a map"

/-- Reads a value. -/
def Leaf.read (mode : Mode) (doc : Doc) : (l : Leaf) → Except Fault l.Carrier
  | .text => readText doc
  | .flag => readFlag doc
  | .count => readCount doc
  | .word v => readWord v mode doc
  | .instant => readInstant doc
  | .days => readDays mode doc
  | .grants => readGrants mode doc
  | .untyped => readUntyped mode doc
  | .properties => readProperties mode doc

end ContentApi
