import ContentApi.Json.Basic
import ContentApi.Text.Hex

/-! Documents written as text, on one line or with one line for each member. -/

namespace ContentApi

/-- A character inside a string: quotes, backslashes and controls are escaped, nothing else is. -/
def jsonChar (c : Char) : List Char :=
  if c = '"' then ['\\', '"']
  else if c = '\\' then ['\\', '\\']
  else if c = '\x08' then ['\\', 'b']
  else if c = '\x0c' then ['\\', 'f']
  else if c = '\n' then ['\\', 'n']
  else if c = '\r' then ['\\', 'r']
  else if c = '\t' then ['\\', 't']
  else if c.toNat < 0x20 then
    ['\\', 'u', '0', '0', hexDigit (c.toNat / 16), hexDigit (c.toNat % 16)]
  else [c]

/-- A string between its quotes. -/
def jsonString (text : String) : String :=
  String.ofList ('"' :: (text.toList.flatMap jsonChar ++ ['"']))

mutual

/-- A document on one line without blanks. -/
def Json.compact : Json → String
  | .null => "null"
  | .flag true => "true"
  | .flag false => "false"
  | .number n => n.render
  | .text s => jsonString s
  | .array items => "[" ++ Json.compactItems "" items ++ "]"
  | .object members => "\x7b" ++ Json.compactMembers "" members ++ "\x7d"

/-- Items divided by commas, after a lead. -/
def Json.compactItems (lead : String) : List Json → String
  | [] => ""
  | item :: rest => lead ++ Json.compact item ++ Json.compactItems "," rest

/-- Members divided by commas, after a lead. -/
def Json.compactMembers (lead : String) : Members → String
  | [] => ""
  | (name, value) :: rest =>
    lead ++ jsonString name ++ ":" ++ Json.compact value ++ Json.compactMembers "," rest

end

/-- The start of a line that is indented by two blanks for each level. -/
def indentation (level : Nat) : String :=
  String.ofList ('\n' :: List.replicate (2 * level) ' ')

mutual

/-- A document with one line for each item and member, indented by two blanks for each level. -/
def Json.pretty (level : Nat) : Json → String
  | .array (item :: rest) =>
    -- Empty arrays and objects stay on one line.
    "[" ++ Json.prettyItems (level + 1) "" (item :: rest) ++ indentation level ++ "]"
  | .object (member :: rest) =>
    "\x7b" ++ Json.prettyMembers (level + 1) "" (member :: rest) ++ indentation level ++ "\x7d"
  | .null => "null"
  | .flag true => "true"
  | .flag false => "false"
  | .number n => n.render
  | .text s => jsonString s
  | .array [] => "[]"
  | .object [] => "\x7b\x7d"

/-- Items on lines of their own, divided by commas, after a lead. -/
def Json.prettyItems (level : Nat) (lead : String) : List Json → String
  | [] => ""
  | item :: rest =>
    lead ++ indentation level ++ Json.pretty level item ++ Json.prettyItems level "," rest

/-- Members on lines of their own, divided by commas, after a lead. -/
def Json.prettyMembers (level : Nat) (lead : String) : Members → String
  | [] => ""
  | (name, value) :: rest =>
    lead ++ indentation level ++ jsonString name ++ ": " ++ Json.pretty level value ++
      Json.prettyMembers level "," rest

end

end ContentApi
