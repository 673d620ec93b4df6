import ContentApi.Url.Percent

/-! Pairs of names and values as a form sends them in a query. -/

namespace ContentApi

/-- Whether a character stands for itself in a form. -/
def keepsInForm (c : Char) : Bool :=
  isAsciiAlnum c || c == '*' || c == '-' || c == '.' || c == '_'

/-- A name or a value of a form, in which a blank becomes a plus sign. -/
def formEncode (cs : List Char) : List Char :=
  cs.flatMap fun c =>
    if c = ' ' then ['+']
    else if keepsInForm c then [c]
    else (String.utf8EncodeChar c).flatMap percentByte

/-- One pair of a form. -/
def formPairChars (pair : String × String) : List Char :=
  formEncode pair.1.toList ++ '=' :: formEncode pair.2.toList

/-- The pairs of a form, divided by ampersands. -/
def formChars : List (String × String) → List Char
  | [] => []
  | [pair] => formPairChars pair
  | pair :: rest => formPairChars pair ++ '&' :: formChars rest

/-- The text of a name or a value of a form. -/
def formDecode (cs : List Char) : String :=
  textOfUtf8 (percentDecode (cs.map fun c => if c = '+' then ' ' else c))

/-- The pieces of a text between the characters that satisfy a test. -/
def splitChars (isBreak : Char → Bool) : List Char → List (List Char)
  | [] => [[]]
  | c :: rest =>
    if isBreak c then [] :: splitChars isBreak rest
    else
      match splitChars isBreak rest with
      | [] => [[c]]
      | piece :: pieces => (c :: piece) :: pieces

/-- The pair that a piece of a query is, whose value follows the first equals sign. -/
def formPairOf (piece : List Char) : String × String :=
  let name := piece.takeWhile (· ≠ '=')
  (formDecode name, formDecode (piece.drop (name.length + 1)))

/-- The pairs that a query stands for, of whose pieces the empty ones do not count. -/
def formPairs (query : List Char) : List (String × String) :=
  ((splitChars (· == '&') query).filter (!·.isEmpty)).map formPairOf

end ContentApi
