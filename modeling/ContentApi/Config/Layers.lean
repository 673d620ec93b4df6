import ContentApi.Config.DotEnv
import ContentApi.Config.Toml.Document
import ContentApi.Service.Connection

/-! Settings in layers: standard ones, over them those of a file, and over these the variables. -/

namespace ContentApi

/-- The setting that the text of a variable is: a flag or a number if it reads as one. -/
def Setting.ofVariable (text : String) : Setting :=
  let cs := text.toList
  let word := lowerChars cs
  if word = "true".toList then .flag true
  else if word = "false".toList then .flag false
  else
    match wholeOf? cs, realOf? cs with
    | some n, _ => .whole n
    | none, some x => .real x
    | none, none => .text text

/-- A text with a point for every two underscores. -/
def pointedChars : List Char → List Char
  | '_' :: '_' :: rest => '.' :: pointedChars rest
  | c :: rest => c :: pointedChars rest
  | [] => []

/-- The start of the names of variables that are settings, in lower case. -/
def variableLead : List Char := "box__".toList

/-- The path of the setting that a variable is, if it is one. -/
def pathOfVariable? (name : String) : Option String :=
  let cs := lowerChars name.toList
  if variableLead.isPrefixOf cs then
    some (String.ofList (pointedChars (cs.drop variableLead.length)))
  else none

/-- The text that a setting is, unless it is a list or a table. -/
def Setting.text? : Setting → Option String
  | .flag b => some (if b then "true" else "false")
  | .whole n => some (toString n)
  | .real x => some x.render
  | .text s => some s
  | .list _ | .table _ => none

/-- The number that a text is, where a few words stand for one and zero. -/
def countOfText? (text : String) : Option Nat :=
  let word := String.ofList (lowerChars text.toList)
  if ["true", "on", "yes"].contains word then some 1
  else if ["false", "off", "no"].contains word then some 0
  else countOf? text.toList

/-- The number that a setting is, unless it is below zero or no number. -/
def Setting.count? : Setting → Option Nat
  | .flag b => some (if b then 1 else 0)
  | .whole n => if 0 ≤ n then some n.toNat else none
  | .real x => some x.toCount
  | .text s => countOfText? s
  | .list _ | .table _ => none

namespace Settings

/-- The name of the table that holds the settings of a connection. -/
def tableName : String := "api"

/-- The names of the variables for the settings of a connection. -/
def variableNames : List String :=
  ["BOX__API__BASE_URL", "BOX__API__BASE_UPLOAD_URL", "BOX__API__ACCESS_TOKEN",
    "BOX__API__USER_AGENT", "BOX__API__TIMEOUT_SECS"]

/-- Settings as a table. -/
def toTable (s : Settings) : SettingTable :=
  [(tableName, .table
    [("base_url", .text s.baseUrl), ("base_upload_url", .text s.uploadUrl),
      ("access_token", .text s.token), ("user_agent", .text s.userAgent),
      ("timeout_secs", .whole s.timeout)])]

/-- The settings whose values are given one by one, if each has a value of its kind. -/
def ofValues? (baseUrl uploadUrl token userAgent timeout : Option Setting) : Option Settings := do
  return {
    baseUrl := ← baseUrl.bind Setting.text?
    uploadUrl := ← uploadUrl.bind Setting.text?
    token := ← token.bind Setting.text?
    userAgent := ← userAgent.bind Setting.text?
    timeout := ← timeout.bind Setting.count? }

/-- The settings that a table holds by name, or a list in the order of declaration. -/
def ofSetting? : Setting → Option Settings
  | .table members =>
    let value := fun name => SettingTable.find? name members
    ofValues? (value "base_url") (value "base_upload_url") (value "access_token")
      (value "user_agent") (value "timeout_secs")
  | .list items => ofValues? items[0]? items[1]? items[2]? items[3]? items[4]?
  | _ => none

/-- A table with those of other settings laid over it one by one. -/
def layAll (table : SettingTable) (settings : SettingTable) : SettingTable :=
  settings.foldl (fun table setting => table.layAt setting.1 setting.2) table

/-- The settings that variables are, by their paths. -/
def ofVariables (known : Variables) : SettingTable :=
  known.filterMap fun pair =>
    (pathOfVariable? pair.1).map fun path => (path, Setting.ofVariable pair.2)

/-- The settings from a file, if there is one, and from variables, over the standard ones. A file
that cannot be read or a setting of the wrong kind leaves none. -/
def ofLayers? (file : Option String) (known : Variables) : Option Settings := do
  let written ← match file with
    | some text => settingsOfToml? text
    | none => some []
  let table := layAll (layAll standard.toTable written) (ofVariables known)
  (table.find? tableName).bind ofSetting?

/-- The settings in layers, or the failure that there are none. -/
def load (file : Option String) (known : Variables) : Except Failure Settings :=
  match ofLayers? file known with
  | some settings => .ok settings
  | none => .error .settings

end Settings

end ContentApi
