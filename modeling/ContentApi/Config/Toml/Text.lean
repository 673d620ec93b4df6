import ContentApi.Text.Hex

/-! The strings, keys and comments of TOML documents. -/

namespace ContentApi

/-- A reader takes something from the front of a document and leaves the rest. -/
abbrev TomlReader (α : Type) := List Char → Option (α × List Char)

/-- Whether a character is a blank inside a line. -/
def isTomlBlank (c : Char) : Bool := c == ' ' || c == '\t'

/-- Whether a character is a control that may not stand in a document. -/
def isTomlControl (c : Char) : Bool :=
  (c.toNat < 0x20 && c != '\t') || c.toNat == 0x7F

/-- What is left of a line after a comment at its front, if there is one. -/
def skipComment (cs : List Char) : List Char :=
  match cs with
  | '#' :: rest => rest.dropWhile fun c => !isTomlControl c
  | cs => cs

/-- What follows the blanks and the comment at the front of a document. -/
def skipToLineEnd (cs : List Char) : List Char :=
  skipComment (cs.dropWhile isTomlBlank)

/-- What follows the end of a line at the front of a document. -/
def afterLineEnd? : List Char → Option (List Char)
  | '\n' :: rest => some rest
  | '\r' :: '\n' :: rest => some rest
  | _ => none

/-- What follows the blanks, comments and ends of lines at the front of a document, for which at
most so many lines are passed over. -/
def skipLines : Nat → List Char → List Char
  | 0, cs => cs
  | lines + 1, cs =>
    match afterLineEnd? (skipToLineEnd cs) with
    | some rest => skipLines lines rest
    | none => skipToLineEnd cs

/-- The character that an escape of one letter stands for. -/
def tomlEscape? (c : Char) : Option Char :=
  if c = 'b' then some '\x08'
  else if c = 't' then some '\t'
  else if c = 'n' then some '\n'
  else if c = 'f' then some '\x0c'
  else if c = 'r' then some '\r'
  else if c = '"' then some '"'
  else if c = '\\' then some '\\'
  else none

/-- The character of a code written in hexadecimal digits, which half of a surrogate pair is not. -/
def charOfHex? (digits : List Char) : Option Char := do
  let values ← digits.mapM hexValue?
  let code := values.foldl (fun n v => 16 * n + v) 0
  if code < 0xD800 ∨ (0xE000 ≤ code ∧ code < 0x110000) then some (Char.ofNat code) else none

/-- Puts a character in front of what a reader takes. -/
def prependChar (c : Char) (taken : Option (List Char × List Char)) :
    Option (List Char × List Char) :=
  taken.map fun t => (c :: t.1, t.2)

/-- The rest of a string in double quotes on one line. -/
def takeQuoted : TomlReader (List Char)
  | '"' :: rest => some ([], rest)
  | '\\' :: 'u' :: a :: b :: c :: d :: rest =>
    (charOfHex? [a, b, c, d]).bind fun x => prependChar x (takeQuoted rest)
  | '\\' :: 'U' :: a :: b :: c :: d :: e :: f :: g :: h :: rest =>
    (charOfHex? [a, b, c, d, e, f, g, h]).bind fun x => prependChar x (takeQuoted rest)
  | '\\' :: c :: rest => (tomlEscape? c).bind fun x => prependChar x (takeQuoted rest)
  | c :: rest => if isTomlControl c then none else prependChar c (takeQuoted rest)
  | [] => none

/-- The rest of a string in single quotes on one line, in which nothing is escaped. -/
def takeLiteral : TomlReader (List Char)
  | '\'' :: rest => some ([], rest)
  | c :: rest => if isTomlControl c then none else prependChar c (takeLiteral rest)
  | [] => none

/-- Whether only blanks stand between a backslash and the end of its line. -/
def endsLine (cs : List Char) : Bool :=
  (afterLineEnd? (cs.dropWhile isTomlBlank)).isSome

/-- The rest of a string of several lines in double quotes, at whose end up to two quotes belong to
the string. After a backslash at the end of a line blanks and ends of lines are passed over. -/
def takeQuotedLines (passing : Bool) : TomlReader (List Char)
  | '"' :: '"' :: '"' :: '"' :: '"' :: rest => some (['"', '"'], rest)
  | '"' :: '"' :: '"' :: '"' :: rest => some (['"'], rest)
  | '"' :: '"' :: '"' :: rest => some ([], rest)
  | '\\' :: 'u' :: a :: b :: c :: d :: rest =>
    (charOfHex? [a, b, c, d]).bind fun x => prependChar x (takeQuotedLines false rest)
  | '\\' :: 'U' :: a :: b :: c :: d :: e :: f :: g :: h :: rest =>
    (charOfHex? [a, b, c, d, e, f, g, h]).bind fun x =>
      prependChar x (takeQuotedLines false rest)
  | '\\' :: c :: rest =>
    match tomlEscape? c with
    | some x => prependChar x (takeQuotedLines false rest)
    | none => if endsLine (c :: rest) then takeQuotedLines true rest else none
  | '\r' :: '\n' :: rest =>
    if passing then takeQuotedLines true rest else prependChar '\n' (takeQuotedLines false rest)
  | c :: rest =>
    if passing && (isTomlBlank c || c == '\n') then takeQuotedLines true rest
    else if isTomlControl c && c != '\n' then none
    else prependChar c (takeQuotedLines false rest)
  | [] => none

/-- The rest of a string of several lines in single quotes. -/
def takeLiteralLines : TomlReader (List Char)
  | '\'' :: '\'' :: '\'' :: '\'' :: '\'' :: rest => some (['\'', '\''], rest)
  | '\'' :: '\'' :: '\'' :: '\'' :: rest => some (['\''], rest)
  | '\'' :: '\'' :: '\'' :: rest => some ([], rest)
  | '\r' :: '\n' :: rest => prependChar '\n' (takeLiteralLines rest)
  | c :: rest =>
    if isTomlControl c && c != '\n' then none else prependChar c (takeLiteralLines rest)
  | [] => none

/-- What follows an end of a line right after the quotes that open a string of several lines. -/
def dropFirstLineEnd (cs : List Char) : List Char :=
  (afterLineEnd? cs).getD cs

/-- A string at the front of a document, or nothing if none starts there. -/
def takeString : TomlReader (List Char)
  | '"' :: '"' :: '"' :: rest => takeQuotedLines false (dropFirstLineEnd rest)
  | '\'' :: '\'' :: '\'' :: rest => takeLiteralLines (dropFirstLineEnd rest)
  | '"' :: rest => takeQuoted rest
  | '\'' :: rest => takeLiteral rest
  | _ => none

/-- Whether a character may stand in a key without quotes. -/
def isBareKeyChar (c : Char) : Bool :=
  c.isAlphanum || c == '_' || c == '-'

/-- One part of a key. -/
def takeKeyPart : TomlReader String
  | '"' :: rest => (takeQuoted rest).map fun taken => (String.ofList taken.1, taken.2)
  | '\'' :: rest => (takeLiteral rest).map fun taken => (String.ofList taken.1, taken.2)
  | cs =>
    let part := cs.takeWhile isBareKeyChar
    if part.isEmpty then none else some (String.ofList part, cs.dropWhile isBareKeyChar)

/-- How deep brackets may stand in each other, and how many parts a key may have. -/
def nestingLimit : Nat := 79

/-- The parts of a key, at most so many, with points between them. -/
def takeKey : Nat → TomlReader (List String)
  | 0, _ => none
  | parts + 1, cs => do
    let first ← takeKeyPart (cs.dropWhile isTomlBlank)
    match first.2.dropWhile isTomlBlank with
    | '.' :: rest =>
      let others ← takeKey parts rest
      return (first.1 :: others.1, others.2)
    | rest => return ([first.1], rest)

end ContentApi
