import ContentApi.Json.Document
import ContentApi.Text.Hex

/-! The reading of texts into documents, one character after another. -/

namespace ContentApi

/-- The text after blanks. -/
def skipJsonBlanks : List Char → List Char
  | [] => []
  | c :: rest =>
    if c = ' ' ∨ c = '\n' ∨ c = '\r' ∨ c = '\t' then skipJsonBlanks rest else c :: rest

/-- The number four hexadecimal digits stand for. -/
def hexQuad? (a b c d : Char) : Option Nat := do
  return 4096 * (← hexValue? a) + 256 * (← hexValue? b) + 16 * (← hexValue? c) + (← hexValue? d)

/-- The character that a backslash and a letter stand for. -/
def simpleEscape? (c : Char) : Option Char :=
  match c with
  | '"' => some '"'
  | '\\' => some '\\'
  | '/' => some '/'
  | 'b' => some '\x08'
  | 'f' => some '\x0c'
  | 'n' => some '\n'
  | 'r' => some '\r'
  | 't' => some '\t'
  | _ => none

/-- Whether a text takes fewer than four bytes, so that no escape can be complete in it. -/
def underFourBytes (cs : List Char) : Bool :=
  (String.ofList cs).utf8ByteSize < 4

/-- A scanned string and the text after it, or the break as a reader and as one who skips meets it.
-/
inductive StringScan where
  /-- A string without a text holds half of a surrogate pair. -/
  | complete (text : Option String) (rest : List Char)
  | broken (read skip : Cut)

/-- A break that a reader meets at a lone half of a surrogate pair, if there is one before it. -/
def StringScan.cut (lone : Bool) (cut : Cut) : StringScan :=
  .broken (if lone then .malformed else cut) cut

/-- The character that two halves of a surrogate pair stand for. -/
def joinSurrogates (high low : Nat) : Char :=
  Char.ofNat (0x10000 + 0x400 * (high - 0xD800) + (low - 0xDC00))

/-- Scans a string after its opening quote. The half of a pair just read waits for the other. -/
def scanString (high : Option Nat) (lone : Bool) (reversed : List Char) : List Char → StringScan
  | [] => .cut lone .ended
  -- A half still waiting at the closing quote never finds the other.
  | '"' :: rest =>
    if lone || high.isSome then .complete none rest
    else .complete (some (String.ofList reversed.reverse)) rest
  | '\\' :: 'u' :: a :: b :: c :: d :: rest =>
    match hexQuad? a b c d with
    | none => .cut lone .malformed
    | some n =>
      -- A first half waits, and leaves the one that waited before it alone.
      if 0xD800 ≤ n ∧ n ≤ 0xDBFF then scanString (some n) (lone || high.isSome) reversed rest
      else if 0xDC00 ≤ n ∧ n ≤ 0xDFFF then
        match high with
        | some h => scanString none lone (joinSurrogates h n :: reversed) rest
        -- A second half with no first one to wait for is alone too.
        | none => scanString none true reversed rest
      else scanString none (lone || high.isSome) (Char.ofNat n :: reversed) rest
  -- Four digits were needed, so the text ends too early or something else stands among them.
  | '\\' :: 'u' :: rest =>
    .cut lone (if underFourBytes rest then .ended else .malformed)
  | ['\\'] => .cut lone .ended
  | '\\' :: c :: rest =>
    match simpleEscape? c with
    | none => .cut (lone || high.isSome) .malformed
    | some e => scanString none (lone || high.isSome) (e :: reversed) rest
  | c :: rest =>
    if c.toNat < 0x20 then .cut (lone || high.isSome) .malformed
    else scanString none (lone || high.isSome) (c :: reversed) rest

/-- The greatest significand that is gathered digit by digit. -/
def significandLimit : Nat := Nat.pow 2 64 - 1

/-- Gathers digits until the next one would exceed the limit, and counts those gathered. -/
def gatherDigits (significand taken : Nat) : List Char → Nat × Nat × List Char
  | [] => (significand, taken, [])
  | c :: rest =>
    let next := 10 * significand + (c.toNat - 48)
    if next ≤ significandLimit then gatherDigits next (taken + 1) rest
    else (significand, taken, c :: rest)

/-- The double that a significand is worth after its point is moved, or nothing if that is
infinite. -/
def movePoint? (value : Binary64) (power : Int) : Nat → Option Binary64
  | 0 => some (Binary64.zero value.negative)
  | fuel + 1 =>
    -- Each step multiplies or divides by one power of ten that is itself a rounded double.
    let step := Binary64.ofRatio? false (Nat.pow 10 power.natAbs) 1
    if power.natAbs ≤ 308 then
      step.bind fun s => if 0 ≤ power then value.mul? s else value.div? s
    -- Beyond the powers that are doubles, zero stays zero and anything else is too great.
    else if value.significand = 0 then some value
    else if 0 ≤ power then none
    else
      (Binary64.ofRatio? false (Nat.pow 10 308) 1).bind fun s =>
        (value.div? s).bind fun v => movePoint? v (power + 308) fuel

/-- The double of a number with a point or an exponent or too many digits. -/
def realOfParts? (negative : Bool) (significand : Nat) (power : Int) : Option Binary64 :=
  (Binary64.ofRatio? negative significand 1).bind fun v =>
    movePoint? v (max (-1000) (min 1000 power)) 4

/-- The exponent that digits after an `e` stand for, cut off where it no longer matters. -/
def exponentOfDigits (digits : List Char) : Nat :=
  digits.foldl (fun n c => min (10 * n + (c.toNat - 48)) (Nat.pow 10 12)) 0

/-- The value of a number from its parts, or nothing if that is infinite. -/
def numberOfParts? (negative : Bool) (whole : List Char) (fraction : Option (List Char))
    (exponent : Option (Bool × List Char)) : Option Number :=
  let lead := gatherDigits 0 0 whole
  match fraction, exponent, lead.2.2 with
  | none, none, [] =>
    if !negative then some (.integer lead.1)
    -- Minus zero and what is below 64 bits are kept as doubles.
    else if lead.1 = 0 ∨ Nat.pow 2 63 < lead.1 then
      (Binary64.ofRatio? true lead.1 1).map Number.real
    else some (.integer (-(lead.1 : Int)))
  | _, _, dropped =>
    -- Digits past the limit count as zeros before the point and as nothing after it.
    let all := gatherDigits lead.1 0 (fraction.getD [])
    let power := (dropped.length : Int) - (all.2.1 : Int)
    match exponent with
    | none => (realOfParts? negative all.1 power).map Number.real
    | some (minus, digits) =>
      let shift : Int := exponentOfDigits digits
      -- Such an exponent makes all but zero infinite, whatever the digits before it are.
      if shift > Nat.pow 2 31 - 1 ∧ all.1 ≠ 0 ∧ !minus then none
      else
        let total := if minus then power - shift else power + shift
        (realOfParts? negative all.1 total).map Number.real

/-- A scanned number and the text after it, or the break as a reader meets it. -/
inductive NumberScan where
  /-- A number without a value is too great. -/
  | complete (value : Option Number) (rest : List Char)
  | broken (read : Cut)

/-- The digits at the start of a text, and what follows them. -/
def spanDigits (cs : List Char) : List Char × List Char :=
  cs.span Char.isDigit

/-- The break where a digit is missing. -/
def missingDigit : List Char → NumberScan
  | [] => .broken .ended
  | _ :: _ => .broken .malformed

/-- Scans the exponent of a number, if it has one. -/
def scanExponent (negative : Bool) (whole : List Char) (fraction : Option (List Char))
    (cs : List Char) : NumberScan :=
  match cs with
  | c :: rest =>
    if c = 'e' ∨ c = 'E' then
      let signed := match rest with
        | '+' :: r => (false, r)
        | '-' :: r => (true, r)
        | r => (false, r)
      let digits := spanDigits signed.2
      -- The letter announces an exponent, so digits must follow.
      if digits.1.isEmpty then missingDigit signed.2
      else .complete (numberOfParts? negative whole fraction (some (signed.1, digits.1))) digits.2
    else .complete (numberOfParts? negative whole fraction none) cs
  | [] => .complete (numberOfParts? negative whole fraction none) []

/-- Scans a number after its sign. -/
def scanNumber (negative : Bool) (cs : List Char) : NumberScan :=
  let whole := spanDigits cs
  -- A zero at the front stands alone.
  if whole.1.isEmpty then missingDigit cs
  else if whole.1.head? = some '0' ∧ 1 < whole.1.length then .broken .malformed
  else
    match whole.2 with
    | '.' :: rest =>
      let fraction := spanDigits rest
      if fraction.1.isEmpty then missingDigit rest
      else scanExponent negative whole.1 (some fraction.1) fraction.2
    | rest => scanExponent negative whole.1 none rest

/-- The text after a given word, or the break where it differs. -/
def scanWord : List Char → List Char → Except Cut (List Char)
  | [], cs => .ok cs
  | _ :: _, [] => .error .ended
  | w :: word, c :: cs => if w = c then scanWord word cs else .error .malformed

/-- A literal read as a word. -/
def scanLiteral (value : Doc) (word cs : List Char) : Doc × List Char :=
  match scanWord word cs with
  | .ok rest => (value, rest)
  | .error cut => (.broken cut cut, [])

/-- A document that is no array and no object. -/
def scanScalar : List Char → Doc × List Char
  | [] => (.broken .ended .ended, [])
  | 'n' :: rest => scanLiteral .null ['u', 'l', 'l'] rest
  | 't' :: rest => scanLiteral (.flag true) ['r', 'u', 'e'] rest
  | 'f' :: rest => scanLiteral (.flag false) ['a', 'l', 's', 'e'] rest
  | '"' :: rest =>
    match scanString none false [] rest with
    | .complete text rest => (.text text, rest)
    | .broken read skip => (.broken read skip, [])
  | c :: rest =>
    let scan :=
      if c = '-' then scanNumber true rest
      else if c.isDigit then scanNumber false (c :: rest)
      else .broken .malformed
    match scan with
    | .complete value rest => (.number value, rest)
    -- One who skips does not tell apart how a number breaks off.
    | .broken read => (.broken read .malformed, [])

/-- The break where a name is missing. -/
def missingName (afterComma : Bool) (cs : List Char) : Stop :=
  match cs with
  | [] => .cut .ended .ended afterComma none
  | '[' :: _ => .cut .malformed .malformed afterComma (some .sequence)
  | '\x7b' :: _ => .cut .malformed .malformed afterComma (some .map)
  | cs =>
    -- A reader that takes any value for a name sees what the value is.
    .cut .malformed .malformed afterComma (scanScalar cs).1.unexpected.toOption

/-- The break after an item or member that neither a comma nor the closing bracket follows. -/
def missingComma (cs : List Char) : Stop :=
  let cut := if cs.isEmpty then Cut.ended else .malformed
  .cut cut cut false none

mutual

/-- Scans one document and returns the text after it. The fuel bounds the nesting. -/
def scanDoc : Nat → List Char → Doc × List Char
  | 0, _ => (.broken .ended .ended, [])
  | fuel + 1, cs =>
    match skipJsonBlanks cs with
    | '[' :: rest =>
      match skipJsonBlanks rest with
      | ']' :: rest => (.array (.nil .closed), rest)
      | [] => (.array (.nil (.cut .ended .ended false none)), [])
      | rest =>
        let scanned := scanItems fuel rest
        (.array scanned.1, scanned.2)
    | '\x7b' :: rest =>
      match skipJsonBlanks rest with
      | '\x7d' :: rest => (.object (.nil .closed), rest)
      | rest =>
        let scanned := scanMembers fuel false rest
        (.object scanned.1, scanned.2)
    | rest => scanScalar rest

/-- Scans an item and those after it. -/
def scanItems : Nat → List Char → DocItems × List Char
  | 0, _ => (.nil (.cut .ended .ended false none), [])
  | fuel + 1, cs =>
    let first := scanDoc fuel cs
    match skipJsonBlanks first.2 with
    | ']' :: rest => (.cons first.1 (.nil .closed), rest)
    | ',' :: rest =>
      match skipJsonBlanks rest with
      | [] => (.cons first.1 (.nil (.cut .ended .ended true none)), [])
      | ']' :: _ => (.cons first.1 (.nil (.cut .malformed .malformed true none)), [])
      | rest =>
        let others := scanItems fuel rest
        (.cons first.1 others.1, others.2)
    | rest => (.cons first.1 (.nil (missingComma rest)), [])

/-- Scans a member and those after it. -/
def scanMembers : Nat → Bool → List Char → DocMembers × List Char
  | 0, _, _ => (.nil (.cut .ended .ended false none), [])
  | fuel + 1, afterComma, cs =>
    match cs with
    | '"' :: rest =>
      match scanString none false [] rest with
      | .broken read skip => (.nil (.cut read skip afterComma none), [])
      | .complete name rest =>
        match skipJsonBlanks rest with
        | [] => (.nil (.afterName name .ended), [])
        | ':' :: rest =>
          let value := scanDoc fuel rest
          match skipJsonBlanks value.2 with
          | '\x7d' :: rest => (.cons name value.1 (.nil .closed), rest)
          -- Behind a comma a name must follow, and not the closing brace.
          | ',' :: rest =>
            let others := scanMembers fuel true (skipJsonBlanks rest)
            (.cons name value.1 others.1, others.2)
          | rest => (.cons name value.1 (.nil (missingComma rest)), [])
        | _ :: _ => (.nil (.afterName name .malformed), [])
    | cs => (.nil (missingName afterComma cs), [])

end

/-- A text read as one document, and whether anything but blanks follows it. -/
structure WholeText where
  /-- The document at the start of the text. -/
  doc : Doc
  /-- Whether the document is followed by more. -/
  trailing : Bool

/-- Reads a text as one document. -/
def WholeText.scan (text : String) : WholeText :=
  let cs := text.toList
  -- Every level and every item takes up at least one character.
  let scanned := scanDoc (2 * cs.length + 2) cs
  ⟨scanned.1, !(skipJsonBlanks scanned.2).isEmpty⟩

/-- The room for nesting when a text is read. -/
def Room.ofText : Room := some 128

/-- The value that a text is, if it is one document and nothing else. -/
def Json.ofText (text : String) : Except Cut Json := do
  let whole := WholeText.scan text
  -- A break inside the document comes before what follows it.
  let value ← whole.doc.toJson Room.ofText
  if whole.trailing then .error .malformed else return value

end ContentApi
