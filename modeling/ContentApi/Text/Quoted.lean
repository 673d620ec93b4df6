import ContentApi.Text.Hex
import ContentApi.Text.Printable

/-! Texts shown between quotes, with every character that could mislead a reader escaped. -/

namespace ContentApi

/-- The escaped form of one character. -/
def quotedChar (c : Char) : List Char :=
  if c = '\x00' then ['\\', '0']
  else if c = '\t' then ['\\', 't']
  else if c = '\r' then ['\\', 'r']
  else if c = '\n' then ['\\', 'n']
  else if c = '"' then ['\\', '"']
  else if c = '\\' then ['\\', '\\']
  else if isPrintable c then [c]
  else ['\\', 'u', '\x7b'] ++ natHexChars c.toNat ++ ['\x7d']

/-- A text between quotes, in which quotes, backslashes and unprintable characters are escaped. -/
def quoted (text : String) : String :=
  String.ofList ('"' :: (text.toList.flatMap quotedChar ++ ['"']))

end ContentApi
