import ContentApi.Config.Setting
import ContentApi.Config.Toml.Moment
import ContentApi.Config.Toml.Text

/-! The values of TOML documents, and the tables that keys and headers build up. -/

namespace ContentApi

/-- How a table came to be, which decides what may still be added to it. -/
inductive TableOrigin where
  /-- A longer header runs through it. -/
  | implied
  | header
  /-- A key of several parts runs through it. -/
  | dotted
  deriving DecidableEq

/-- What a key of a document stands for while the document is read. -/
inductive TomlNode where
  | value (value : Setting)
  | table (origin : TableOrigin) (members : List (String × TomlNode))
  /-- Tables of one name, the last one first. -/
  | tables (reversed : List (List (String × TomlNode)))
  deriving Inhabited

/-- The keys of a table with what they stand for. -/
abbrev TomlTable := List (String × TomlNode)

/-- What a key stands for. -/
def TomlTable.find? (key : String) (table : TomlTable) : Option TomlNode :=
  (List.find? (·.1 == key) table).map (·.2)

/-- A table in which a key stands for something else. -/
def TomlTable.put (key : String) (node : TomlNode) : TomlTable → TomlTable
  | [] => [(key, node)]
  | (name, old) :: rest =>
    if name = key then (key, node) :: rest else (name, old) :: TomlTable.put key node rest

mutual

/-- The setting that a node is. -/
def TomlNode.setting : TomlNode → Setting
  | .value value => value
  | .table _ members => .table (TomlTable.settings members)
  | .tables reversed => .list (TomlTable.settingsEach reversed).reverse

/-- The settings that the keys of a table stand for. -/
def TomlTable.settings : List (String × TomlNode) → SettingTable
  | [] => []
  | (key, node) :: rest => (key, TomlNode.setting node) :: TomlTable.settings rest

/-- The settings that tables are. -/
def TomlTable.settingsEach : List (List (String × TomlNode)) → List Setting
  | [] => []
  | table :: rest => .table (TomlTable.settings table) :: TomlTable.settingsEach rest

end

/-- Adds a value at a key, whose parts but the last lead through tables that no header opened. The
last of these tables must be one of dotted keys. -/
def TomlTable.addValue (value : Setting) : List String → TomlTable → Option TomlTable
  | [], _ => none
  | [key], table => if (table.find? key).isSome then none else some (table.put key (.value value))
  | key :: rest, table =>
    let isLast := rest.length = 1
    match table.find? key with
    | none =>
      (TomlTable.addValue value rest []).map fun inner => table.put key (.table .dotted inner)
    | some (.table .dotted members) =>
      (TomlTable.addValue value rest members).map fun inner =>
        table.put key (.table .dotted inner)
    -- A table that headers run through may be passed by a key, but not be added to.
    | some (.table .implied members) =>
      if isLast then none
      else
        (TomlTable.addValue value rest members).map fun inner =>
          table.put key (.table .implied inner)
    | some (.tables (last :: earlier)) =>
      if isLast then none
      else
        (TomlTable.addValue value rest last).map fun inner =>
          table.put key (.tables (inner :: earlier))
    | some _ => none

/-- Changes the table to which the parts of a header lead. -/
def TomlTable.changeAt (change : TomlTable → Option TomlTable) :
    List String → TomlTable → Option TomlTable
  | [], table => change table
  | key :: rest, table =>
    match table.find? key with
    | none =>
      (TomlTable.changeAt change rest []).map fun inner => table.put key (.table .implied inner)
    | some (.table origin members) =>
      (TomlTable.changeAt change rest members).map fun inner => table.put key (.table origin inner)
    | some (.tables (last :: earlier)) =>
      (TomlTable.changeAt change rest last).map fun inner =>
        table.put key (.tables (inner :: earlier))
    | some _ => none

/-- Opens a table for a header, which may have been implied and not more. -/
def TomlTable.openTable (key : String) (table : TomlTable) : Option TomlTable :=
  match table.find? key with
  | none => some (table.put key (.table .header []))
  | some (.table .implied members) => some (table.put key (.table .header members))
  | some _ => none

/-- Opens one more of the tables of one name. -/
def TomlTable.openNext (key : String) (table : TomlTable) : Option TomlTable :=
  match table.find? key with
  | none => some (table.put key (.tables [[]]))
  | some (.tables reversed) => some (table.put key (.tables ([] :: reversed)))
  | some _ => none

/-- The digits of a number, of which an underscore may stand between any two. -/
def plainDigits? (isDigit : Char → Bool) : List Char → Option (List Char)
  | [] => none
  | [c] => if isDigit c then some [c] else none
  | c :: '_' :: rest => if isDigit c then (plainDigits? isDigit rest).map (c :: ·) else none
  | c :: rest => if isDigit c then (plainDigits? isDigit rest).map (c :: ·) else none

/-- The number of digits of a base after the letter that names it. -/
def basedWhole? (base : Nat) (cs : List Char) : Option Int := do
  let isDigit := fun c => (hexValue? c).any (· < base)
  let digits ← plainDigits? isDigit cs
  let values ← digits.mapM hexValue?
  let n := values.foldl (fun n v => base * n + v) 0
  if n < Nat.pow 2 63 then some n else none

/-- Whether digits have no zero in front of others. -/
def isPlainWhole : List Char → Bool
  | '0' :: _ :: _ => false
  | digits => !digits.isEmpty

/-- A whole number in decimal. -/
def decimalWhole? (cs : List Char) : Option Int := do
  let signed := splitSign cs
  let digits ← plainDigits? Char.isDigit signed.2
  if !isPlainWhole digits then none
  wholeOf? (if signed.1 then '-' :: digits else digits)

/-- The digits before a power, where a point may stand between digits. -/
def plainReal? (cs : List Char) : Option (List Char) := do
  let whole := cs.takeWhile (· ≠ '.')
  let digits ← plainDigits? Char.isDigit whole
  if !isPlainWhole digits then none
  match cs.dropWhile (· ≠ '.') with
  | '.' :: rest => return digits ++ '.' :: (← plainDigits? Char.isDigit rest)
  | _ => return digits

/-- A double, which has a point or a power unless it is named. None above all finite ones may be
written in digits. -/
def tomlReal? (cs : List Char) : Option RealSetting := do
  let signed := splitSign cs
  if signed.2 = "inf".toList then some (.infinite signed.1)
  else if signed.2 = "nan".toList then some .notANumber
  else if signed.2.all fun c => c.isDigit || c == '_' then none
  else
    let isPower := fun c => c == 'e' || c == 'E'
    let front ← plainReal? (signed.2.takeWhile (!isPower ·))
    let back ← match signed.2.dropWhile (!isPower ·) with
      | _ :: power =>
        let sign := power.takeWhile fun c => c == '+' || c == '-'
        (plainDigits? Char.isDigit (power.drop sign.length)).map fun digits =>
          'e' :: (sign ++ digits)
      | [] => some []
    match decimalOf? signed.1 (front ++ back) with
    -- Below all finite numbers there is no such refusal.
    | some (.infinite false) => none
    | read => read

/-- A value written without quotes or brackets. -/
def bareValue? (cs : List Char) : Option Setting :=
  if cs = "true".toList then some (.flag true)
  else if cs = "false".toList then some (.flag false)
  else
    match cs with
    | '0' :: 'x' :: rest => (basedWhole? 16 rest).map .whole
    | '0' :: 'o' :: rest => (basedWhole? 8 rest).map .whole
    | '0' :: 'b' :: rest => (basedWhole? 2 rest).map .whole
    | cs =>
      match decimalWhole? cs with
      | some n => some (.whole n)
      | none =>
        match tomlReal? cs with
        | some x => some (.real x)
        | none => (momentChars? cs).map fun moment => .text (String.ofList moment)

/-- Whether a character ends a value written without quotes or brackets. -/
def endsBareValue (c : Char) : Bool :=
  isTomlBlank c || isTomlControl c || c == ',' || c == ']' || c == '\x7d' || c == '#'

/-- How many characters a value written without quotes or brackets has. -/
def bareLength (cs : List Char) : Nat :=
  let word := cs.takeWhile (!endsBareValue ·)
  match cs.drop word.length with
  | ' ' :: c :: rest =>
    -- A blank may stand between a date and a time.
    if isDateText word && c.isDigit then
      word.length + 1 + ((c :: rest).takeWhile (!endsBareValue ·)).length
    else word.length
  | _ => word.length

mutual

/-- A value at the front of a document, with brackets at most so deep and items at most so many. -/
def takeValue : Nat → Nat → TomlReader Setting
  | _, 0, _ => none
  | 0, _, '[' :: _ => none
  | 0, _, '\x7b' :: _ => none
  | levels + 1, fuel + 1, '[' :: rest => do
    let items ← takeItems levels fuel rest
    return (.list items.1, items.2)
  | levels + 1, fuel + 1, '\x7b' :: rest =>
    match rest.dropWhile isTomlBlank with
    | '\x7d' :: rest => some (.table [], rest)
    | rest => takePairs levels fuel [] rest
  | _, _, cs =>
    match cs with
    | '"' :: _ | '\'' :: _ => do
      let taken ← takeString cs
      return (.text (String.ofList taken.1), taken.2)
    | _ => do
      let value ← bareValue? (cs.take (bareLength cs))
      return (value, cs.drop (bareLength cs))

/-- The items of a list up to its closing bracket, before which a comma may stand. -/
def takeItems : Nat → Nat → TomlReader (List Setting)
  | _, 0, _ => none
  | levels, fuel + 1, cs =>
    match skipLines cs.length cs with
    | ']' :: rest => some ([], rest)
    | cs => do
      let first ← takeValue levels fuel cs
      match skipLines first.2.length first.2 with
      | ',' :: rest => do
        let others ← takeItems levels fuel rest
        return (first.1 :: others.1, others.2)
      | ']' :: rest => return ([first.1], rest)
      | _ => none

/-- The keys of a table on one line with their values, up to its closing brace. -/
def takePairs : Nat → Nat → TomlTable → TomlReader Setting
  | _, 0, _, _ => none
  | levels, fuel + 1, table, cs => do
    let key ← takeKey nestingLimit cs
    match key.2 with
    | '=' :: rest =>
      let value ← takeValue levels fuel (rest.dropWhile isTomlBlank)
      let table ← table.addValue value.1 key.1
      match value.2.dropWhile isTomlBlank with
      | ',' :: rest => takePairs levels fuel table rest
      | '\x7d' :: rest => return (.table (TomlTable.settings table), rest)
      | _ => none
    | _ => none

end

end ContentApi
