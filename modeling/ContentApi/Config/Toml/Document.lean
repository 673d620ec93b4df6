import ContentApi.Config.Toml.Value

/-! TOML documents as tables of settings. -/

namespace ContentApi

/-- A document as far as it has been read. -/
structure TomlState where
  /-- The table of the whole document. -/
  root : TomlTable
  /-- The header under which the next keys stand. -/
  header : List String

/-- What follows a line that is finished. -/
def finishLine? (cs : List Char) : Option (List Char) :=
  match skipToLineEnd cs with
  | [] => some []
  | cs => afterLineEnd? cs

/-- A key and its value in a line. -/
def takePairLine (state : TomlState) : TomlReader TomlState := fun cs => do
  let key ← takeKey nestingLimit cs
  match key.2 with
  | '=' :: rest =>
    let value ← takeValue nestingLimit (rest.length + 1) (rest.dropWhile isTomlBlank)
    let root ← state.root.changeAt (TomlTable.addValue value.1 key.1) state.header
    return (⟨root, state.header⟩, value.2)
  | _ => none

/-- The header of a table, in one pair of brackets or in two. -/
def takeHeaderLine (state : TomlState) (repeats : Bool) : TomlReader TomlState := fun cs => do
  let key ← takeKey nestingLimit cs
  let rest ← match repeats, key.2 with
    | true, ']' :: ']' :: rest => some rest
    | false, ']' :: rest => some rest
    | _, _ => none
  let last ← key.1.getLast?
  let opened := if repeats then TomlTable.openNext last else TomlTable.openTable last
  let root ← state.root.changeAt opened key.1.dropLast
  return (⟨root, key.1⟩, rest)

/-- A document from some line on, with at most so many lines that say something. -/
def readTomlLines : Nat → TomlState → List Char → Option TomlTable
  | 0, _, _ => none
  | lines + 1, state, cs => do
    match skipLines cs.length cs with
    | [] => return state.root
    | cs =>
      let taken ← match cs with
        | '[' :: '[' :: rest => takeHeaderLine state true rest
        | '[' :: rest => takeHeaderLine state false rest
        | cs => takePairLine state cs
      readTomlLines lines taken.1 (← finishLine? taken.2)

/-- The settings of a document, if it is one. -/
def settingsOfToml? (text : String) : Option SettingTable :=
  let cs := text.toList
  -- A mark of byte order at the front does not count.
  let cs := match cs with
    | '\uFEFF' :: rest => rest
    | cs => cs
  (readTomlLines (cs.length + 1) ⟨[], []⟩ cs).map TomlTable.settings

end ContentApi
