import ContentApi.Config.Number

/-! Trees of settings, and the paths at which they are changed. -/

namespace ContentApi

/-- A setting, or a table of settings. -/
inductive Setting where
  | flag (value : Bool)
  | whole (value : Int)
  | real (value : RealSetting)
  | text (value : String)
  | list (items : List Setting)
  | table (members : List (String × Setting))
  deriving Inhabited

/-- The settings of a table. -/
abbrev SettingTable := List (String × Setting)

/-- The setting of a name. -/
def SettingTable.find? (name : String) (table : SettingTable) : Option Setting :=
  (List.find? (·.1 == name) table).map (·.2)

/-- A table with a setting put in the place of whatever had its name. -/
def SettingTable.put (name : String) (value : Setting) : SettingTable → SettingTable
  | [] => [(name, value)]
  | (key, old) :: rest =>
    if key = name then (name, value) :: rest else (key, old) :: SettingTable.put name value rest

/-- The table that a setting is, empty if it is none. -/
def Setting.members : Option Setting → SettingTable
  | some (.table members) => members
  | _ => []

mutual

/-- What becomes of a setting when another is laid over it: tables unite, and anything else
replaces. -/
def Setting.laidOver (old : Option Setting) : Setting → Setting
  | .table members => .table (SettingTable.laidOver (Setting.members old) members)
  | other => other

/-- A table with the settings of another laid over it one by one. -/
def SettingTable.laidOver (table : SettingTable) : List (String × Setting) → SettingTable
  | [] => table
  | (name, value) :: rest =>
    SettingTable.laidOver
      (SettingTable.put name (Setting.laidOver (SettingTable.find? name table) value) table) rest

end

/-- A table with a setting laid over what is at a path. Whatever is no table gives way to one. -/
def SettingTable.setAt (value : Setting) : List String → SettingTable → SettingTable
  | [], table => table
  | [name], table => table.put name (Setting.laidOver (table.find? name) value)
  | name :: rest, table =>
    table.put name (.table (SettingTable.setAt value rest (Setting.members (table.find? name))))

/-- Whether a character may stand in a part of a path. -/
def isPathChar (c : Char) : Bool :=
  c.isAlphanum || c == '_' || c == '-' || c == ' '

/-- The number in brackets at the front of a text, and what follows it. -/
def splitIndex? (cs : List Char) : Option (List Char) :=
  let isGap := fun c => c == ' ' || c == '\t' || c == '\r' || c == '\n'
  let inner := cs.dropWhile isGap
  let digits := match inner with
    | '-' :: rest => rest
    | rest => rest
  if (digits.takeWhile Char.isDigit).isEmpty then none
  else
    match (digits.dropWhile Char.isDigit).dropWhile isGap with
    | ']' :: rest => some rest
    | _ => none

/-- A place among settings: a path of names, or a place in the list at a path. -/
structure SettingPlace where
  /-- The names from the outermost table on. -/
  names : List String
  /-- Whether the place is one in a list. -/
  isIndexed : Bool
  deriving DecidableEq

/-- The rest of a path after some of its names. A text that is no path gives nothing. -/
def pathFrom : Nat → SettingPlace → List Char → Option SettingPlace
  | _, place, [] => some place
  | 0, _, _ :: _ => none
  | fuel + 1, place, '.' :: rest =>
    let name := rest.takeWhile isPathChar
    if name.isEmpty then none
    else
      let names := if place.isIndexed then place.names else place.names ++ [String.ofList name]
      pathFrom fuel ⟨names, place.isIndexed⟩ (rest.dropWhile isPathChar)
  | fuel + 1, place, '[' :: rest =>
    (splitIndex? rest).bind fun rest => pathFrom fuel ⟨place.names, true⟩ rest
  | _, _, _ => none

/-- The place that a text names: names divided by points, or else the text itself as a name. -/
def SettingPlace.ofText (text : String) : SettingPlace :=
  let cs := text.toList
  let name := cs.takeWhile isPathChar
  let parsed :=
    if name.isEmpty then none
    else pathFrom cs.length ⟨[String.ofList name], false⟩ (cs.dropWhile isPathChar)
  parsed.getD ⟨[text], false⟩

/-- A table with a setting laid over what is at a place. In a list only its being one is kept. -/
def SettingTable.layAt (text : String) (value : Setting) (table : SettingTable) : SettingTable :=
  let place := SettingPlace.ofText text
  table.setAt (if place.isIndexed then .list [] else value) place.names

end ContentApi
