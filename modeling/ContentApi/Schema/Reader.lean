import ContentApi.Json.Scan
import ContentApi.Schema.Datum

/-! The reading of typed documents, from a text or from a value. -/

namespace ContentApi

/-- The fault of a break. -/
def Cut.lift {α : Type} (result : Except Cut α) : Except Fault α :=
  result.mapError .cut

/-- Reads the `type` of an item. -/
def readTag (doc : Doc) : Except Fault ItemKind :=
  match doc with
  | .text (some tag) =>
    match ItemKind.ofTag? tag with
    | some k => .ok k
    | none => .error (.mismatch (.unknownTag tag))
  | doc => doc.mismatch "variant identifier"

/-- Finds the kind of an item among its members, all of whose values are read to their end. -/
def readItemKind (mode : Mode) (seen : Option ItemKind) : DocMembers → Except Fault ItemKind
  -- A second type is a fault by its name alone, before its value is missed.
  | .nil (.afterName (some name) next) =>
    if name = "type" ∧ seen.isSome then .error (.mismatch (.repeated "type"))
    else .error (.cut next)
  | .nil stop => do
    Cut.lift stop.read
    match seen with
    | some k => return k
    | none => throw (.mismatch (.missing "type"))
  | .cons none _ _ => .error (.cut .malformed)
  | .cons (some name) value rest => do
    if name = "type" then
      if seen.isSome then throw (.mismatch (.repeated "type"))
      let k ← readTag value
      readItemKind mode (some k) rest
    else
      -- The other members are set aside, for which they must be readable.
      Cut.lift (value.check mode.room)
      readItemKind mode seen rest

/-- The fault of an item written as a list, which no item is. -/
def readItemRow (mode : Mode) : DocItems → Except Fault (Datum .item)
  | .nil stop => do
    Cut.lift stop.read
    throw (.mismatch (.missing "type"))
  | .cons first rest => do
    let k ← readTag first
    -- The kind that is named does not help, once the rest has been set aside.
    discard (Cut.lift (rest.toJson mode.room))
    throw (.mismatch (.kind .sequence ("struct " ++ k.kind.structName)))

/-- What ends a row of values that has one for every member. -/
def readRowEnd (mode : Mode) (total : Nat) (width : Nat) : DocItems → Except Fault Unit
  | .nil .closed => .ok ()
  | rest =>
    match mode, rest with
    | .text _, .nil (.cut read _ false _) => .error (.cut read)
    | .text _, _ => .error (.cut .malformed)
    | .value, _ => .error (.mismatch (.length total "fewer elements in array"))
    | .aside, _ =>
      let elements := if width = 1 then "1 element" else toString width ++ " elements"
      .error (.mismatch (.length total (elements ++ " in sequence")))

/-- The words for how long a row must be. -/
def rowLength (k : Kind) : String :=
  let width := k.members.length
  "struct " ++ k.structName ++ " with " ++
    (if width = 1 then "1 element" else toString width ++ " elements")

/-- The record of members that a row has no values for. -/
def readRowRest (k : Kind) (index : Nat) (ms : List Member) : Except Fault (Fields ms) :=
  if k.needsWholeRow && !ms.isEmpty then .error (.mismatch (.length index (rowLength k)))
  else ((Slots.empty ms).finish).mapError fun name => .mismatch (.missing name)

/-- Reads what a record holds for a member, given how documents and lists are read. -/
def readSlot (doc : Doc) (datum : (s : Shape) → Except Fault (Datum s))
    (items : (s : Shape) → Except Fault (Items s)) (mode : Mode) :
    (m : Member) → Except Fault (Slot m)
  | .optional _ s =>
    match doc with
    | .null => .ok .absent
    | _ => (datum s).map .given
  | .plain _ l => (l.read mode doc).map .plain
  | .entries _ s => (items s).map .entries
  | .omittable _ s =>
    match doc with
    | .null => .ok (.omittable .nil)
    | _ => (items s).map .omittable
  -- A member that must be there is read as it stands, so null is a fault to most leaves.
  | .mandatory _ l => (l.read mode doc).map .mandatory

/-- Which members of an object a reading of a record takes up. -/
inductive Portion where
  | all
  /-- The members that a record does not share with other items; the rest are read to their end. -/
  | own
  /-- The members that items share, once all the rest has been read. -/
  | shared

/-- Whether a portion takes up a member. -/
def Portion.takes (portion : Portion) (k : Kind) (name : String) : Bool :=
  match portion with
  | .all => true
  | .own => !itemMembers.any (·.name == name)
  | .shared => itemMembers.any (·.name == name) && k.extendsItem

/-- Passes over a member that is not taken up. -/
def Portion.pass (portion : Portion) (mode : Mode) (doc : Doc) : Except Fault Unit :=
  match portion with
  | .all => Cut.lift doc.skip
  | .own => Cut.lift (doc.check mode.room)
  | .shared => .ok ()

/-- The place of a member that a portion takes up. -/
def Portion.locate? (portion : Portion) (k : Kind) (name : String) : Option (Located k.members) :=
  if portion.takes k name then ContentApi.locate? name k.members else none

/-- The end of an object, where a name without a value may repeat one that was read. -/
def readMembersEnd {k : Kind} (portion : Portion) (slots : Slots k.members) (stop : Stop) :
    Except Fault (Slots k.members) := do
  if let .afterName (some name) _ := stop then
    -- Only a member that is taken up can be found to be there twice.
    if let some found := portion.locate? k name then
      if (slots.get found.place).isSome then throw (.mismatch (.repeated name))
  Cut.lift stop.read
  return slots

/-- Reads what a record holds, shared members after all others, given how a portion is read. -/
def readPasses (mode : Mode) (k : Kind)
    (pass : Mode → Portion → Slots k.members → Except Fault (Slots k.members)) :
    Except Fault (Fields k.members) := do
  let slots ←
    if k.extendsItem then do
      let own ← pass mode .own (Slots.empty k.members)
      -- Shared members are looked at only when the whole object has been read.
      pass .aside .shared own
    else pass mode .all (Slots.empty k.members)
  slots.finish.mapError fun name => .mismatch (.missing name)

mutual

/-- Reads a document of a shape. -/
def readDatum (mode : Mode) (s : Shape) : Doc → Except Fault (Datum s)
  | .object members =>
    match s with
    | .leaf l => (l.read mode (.object members)).map .leaf
    | .record k => do
      let inner ← mode.enter
      let fields ← readPasses inner k fun mode portion slots =>
        readMembers mode portion k slots members
      return .record fields
    | .item => do
      let inner ← mode.enter
      let k ← readItemKind inner none members
      let fields ← readPasses .aside k.kind fun mode portion slots =>
        readMembers mode portion k.kind slots members
      return .item k fields
  | .array items =>
    match s with
    | .leaf l => (l.read mode (.array items)).map .leaf
    | .record k =>
      if k.extendsItem then
        .error (.mismatch (.kind .sequence ("struct " ++ k.structName)))
      else do
        let inner ← mode.enter
        let fields ← readRow inner k items.length 0 k.members items
        return .record fields
    | .item => do
      let inner ← mode.enter
      readItemRow inner items
  | doc =>
    match s with
    | .leaf l => (l.read mode doc).map .leaf
    | .record k => doc.mismatch ("struct " ++ k.structName)
    | .item => doc.mismatch "internally tagged enum ItemInfo"

/-- Reads members one after another into what has been read so far. -/
def readMembers (mode : Mode) (portion : Portion) (k : Kind) (slots : Slots k.members) :
    DocMembers → Except Fault (Slots k.members)
  | .nil stop => readMembersEnd portion slots stop
  | .cons none _ _ => .error (.cut .malformed)
  | .cons (some name) value rest =>
    match portion.locate? k name with
    | none => do
      -- What is not taken up may still break off.
      portion.pass mode value
      readMembers mode portion k slots rest
    | some found =>
      -- The second value of a member is not looked at any more.
      if (slots.get found.place).isSome then .error (.mismatch (.repeated name))
      else do
        let slot ← readSlot value (fun s => readDatum mode s value)
          (fun s => readItems mode s value) mode found.member
        readMembers mode portion k (slots.put found.place slot) rest

/-- Reads a list of documents of one shape. -/
def readItems (mode : Mode) (s : Shape) : Doc → Except Fault (Items s)
  | .array items => do
    let inner ← mode.enter
    readEach inner s items
  | doc => doc.mismatch "a sequence"

/-- Reads documents of one shape to the end of their list. -/
def readEach (mode : Mode) (s : Shape) : DocItems → Except Fault (Items s)
  | .nil stop => do
    Cut.lift stop.read
    return .nil
  | .cons first rest => do
    let datum ← readDatum mode s first
    return .cons datum (← readEach mode s rest)

/-- Reads a record from a row of values in the order of declaration. -/
def readRow (mode : Mode) (k : Kind) (total index : Nat) :
    (ms : List Member) → DocItems → Except Fault (Fields ms)
  | [], .nil stop => do
    readRowEnd mode total index (.nil stop)
    return .nil
  | [], .cons first rest => do
    readRowEnd mode total index (.cons first rest)
    return .nil
  | m :: ms, .nil stop => do
    Cut.lift stop.read
    readRowRest k index (m :: ms)
  | m :: ms, .cons first rest => do
    let slot ← readSlot first (fun s => readDatum mode s first)
      (fun s => readItems mode s first) mode m
    return .cons slot (← readRow mode k total (index + 1) ms rest)

end

/-- The typed document that a value is. -/
def Datum.ofJson (s : Shape) (value : Json) : Except Fault (Datum s) :=
  readDatum .value s (Doc.ofJson value)

/-- The typed document that a text is, if nothing follows it. -/
def Datum.ofText (s : Shape) (text : String) : Except Fault (Datum s) := do
  let whole := WholeText.scan text
  -- A fault in the document comes before one behind it.
  let datum ← readDatum (.text 128) s whole.doc
  if whole.trailing then throw (.cut .malformed) else return datum

end ContentApi
