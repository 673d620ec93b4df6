import ContentApi.Text.Blank

/-! Files of variables, one `name=value` a line, whose values may be quoted and refer to others. -/

namespace ContentApi

/-- Names of variables with their values. -/
abbrev Variables := List (String × String)

/-- The value of a variable. -/
def Variables.find? (name : String) (known : Variables) : Option String :=
  (List.find? (·.1 == name) known).map (·.2)

/-- Where in a line its end is looked for. -/
inductive LinePhase where
  | plain
  | blank
  | escape
  | double
  | doubleEscape
  | single
  | singleEscape
  deriving DecidableEq

/-- The phase after a character, or nothing where a comment begins. -/
def LinePhase.after (phase : LinePhase) (c : Char) : Option LinePhase :=
  let opening :=
    if c = '\\' then LinePhase.escape
    else if c = '"' then .double
    else if c = '\'' then .single
    else .plain
  match phase with
  | .plain => some (if isBlank c && c != '\n' && c != '\r' then .blank else opening)
  | .blank => if c = '#' then none else some opening
  | .escape => some .plain
  | .double => some (if c = '\\' then .doubleEscape else if c = '"' then .plain else .double)
  | .doubleEscape => some .double
  | .single => some (if c = '\\' then .singleEscape else if c = '\'' then .plain else .single)
  | .singleEscape => some .single

/-- The phase after a text, and what of the text stands before a comment. -/
def LinePhase.afterAll (phase : LinePhase) : List Char → List Char × Option LinePhase
  | [] => ([], some phase)
  | c :: rest =>
    match phase.after c with
    | none => ([], none)
    | some next =>
      let later := LinePhase.afterAll next rest
      (c :: later.1, later.2)

/-- The lines of a text, each with its end. -/
def rawLines : List Char → List (List Char)
  | [] => []
  | '\n' :: rest => ['\n'] :: rawLines rest
  | c :: rest =>
    match rawLines rest with
    | [] => [[c]]
    | line :: lines => (c :: line) :: lines

/-- A line without its end. -/
def withoutLineEnd (line : List Char) : List Char :=
  match line.reverse with
  | '\n' :: '\r' :: rest => rest.reverse
  | '\n' :: rest => rest.reverse
  | _ => line

/-- The entries of a text, each of one line unless quotes run on. The last one is nothing if its end
is not reached. -/
def entryLines (gathered : List Char) (phase : LinePhase) :
    List (List Char) → List (Option (List Char))
  | [] => if phase = .plain then [] else [none]
  | line :: rest =>
    if (gathered ++ line).dropWhile isBlank |>.head?.any (· == '#') then
      some [] :: entryLines [] .plain rest
    else
      -- The entry ends with its line, unless quotes are still open there.
      match phase.afterAll line with
      | (before, none) => some (gathered ++ before) :: entryLines [] .plain rest
      | (_, some .plain) => some (withoutLineEnd (gathered ++ line)) :: entryLines [] .plain rest
      | (_, some phase) => entryLines (gathered ++ line) phase rest

/-- How a value refers to another variable: without braces after the sign, or inside braces. -/
inductive Reference where
  | bare (reversed : List Char)
  | braced (reversed : List Char)

/-- Where in a value its reader stands. -/
inductive ValuePhase where
  | plain
  | ended
  | single
  /-- After a backslash, inside double quotes or not. -/
  | escaped (within : Bool)
  | double
  /-- Inside a reference, which may stand in double quotes. -/
  | reference (name : Reference) (within : Bool)

/-- Whether a character may stand in a name after a dollar sign. What is not ASCII may. -/
def isReferenceChar (c : Char) : Bool :=
  c.isAlphanum || 0x80 ≤ c.toNat

/-- The value of the variable of a name, empty if there is none. -/
def valueOfReference (known : Variables) (reversed : List Char) : List Char :=
  ((known.find? (String.ofList reversed.reverse)).getD "").toList

/-- The phase in which text is read again, inside double quotes or not. -/
def ValuePhase.resume (within : Bool) : ValuePhase :=
  if within then .double else .plain

/-- One step through a value: what it adds, and the phase after it, unless it is a fault. -/
def ValuePhase.step (known : Variables) (phase : ValuePhase) (c : Char) :
    Option (List Char × ValuePhase) :=
  match phase with
  | .ended => if c = ' ' ∨ c = '\t' then some ([], .ended) else none
  | .escaped within =>
    if c = 'n' then some (['\n'], .resume within)
    else if c = '\\' ∨ c = '\'' ∨ c = '"' ∨ c = '$' ∨ c = ' ' then some ([c], .resume within)
    else none
  | .single => if c = '\'' then some ([], .plain) else some ([c], .single)
  | .reference (.bare name) within =>
    if isReferenceChar c then some ([], .reference (.bare (c :: name)) within)
    else if c = '\x7b' ∧ name.isEmpty then some ([], .reference (.braced []) within)
    else if c = '$' then some (valueOfReference known name, .reference (.bare []) within)
    else some (valueOfReference known name ++ [c], .resume within)
  | .reference (.braced name) within =>
    if c = '\x7d' then some (valueOfReference known name, .resume within)
    else some ([], .reference (.braced (c :: name)) within)
  | .double =>
    if c = '$' then some ([], .reference (.bare []) true)
    else if c = '"' then some ([], .plain)
    else if c = '\\' then some ([], .escaped true)
    else some ([c], .double)
  | .plain =>
    if c = '$' then some ([], .reference (.bare []) false)
    else if c = '\'' then some ([], .single)
    else if c = '"' then some ([], .double)
    else if c = '\\' then some ([], .escaped false)
    else if c = ' ' ∨ c = '\t' then some ([], .ended)
    else some ([c], .plain)

/-- What the end of a value adds, unless quotes or braces are still open. -/
def ValuePhase.finish (known : Variables) : ValuePhase → Option (List Char)
  | .plain | .ended | .escaped false => some []
  | .reference (.bare name) false => some (valueOfReference known name)
  | _ => none

/-- The value that a text stands for. -/
def valueChars (known : Variables) (phase : ValuePhase) : List Char → Option (List Char)
  | [] => phase.finish known
  | c :: rest =>
    match phase, c with
    | .ended, '#' => some []
    | _, _ => do
      let stepped ← phase.step known c
      return stepped.1 ++ (← valueChars known stepped.2 rest)

/-- The name at the front of a line and what follows it and the blanks after it. -/
def takeVariableName? (cs : List Char) : Option (String × List Char) :=
  match cs with
  | [] => none
  | c :: _ =>
    if c.isAlpha || c == '_' then
      let isNameChar := fun d : Char => d.isAlphanum || d == '_' || d == '.'
      let name := String.ofList (cs.takeWhile isNameChar)
      some (name, (cs.dropWhile isNameChar).dropWhile isBlank)
    else none

/-- What follows the equals sign at the front of a text. -/
def afterEquals? : List Char → Option (List Char)
  | '=' :: rest => some rest
  | _ => none

/-- The name in a line, which the word `export` may come before, and what follows its equals sign.
-/
def takeAssignment? (cs : List Char) : Option (String × List Char) := do
  let first ← takeVariableName? cs
  match afterEquals? first.2 with
  | some rest => return (first.1, rest)
  | none =>
    if first.1 ≠ "export" then none
    let second ← takeVariableName? first.2
    return (second.1, ← afterEquals? second.2)

/-- The variable that a line sets, where a line may set none. -/
def variableOfLine (known : Variables) (line : List Char) : Option (Option (String × String)) :=
  match trimChars line with
  | [] | '#' :: _ => some none
  | cs => do
    let assignment ← takeAssignment? cs
    match assignment.2.dropWhile isBlank with
    -- A name without a value is one that is empty.
    | [] | '#' :: _ => return some (assignment.1, "")
    | value =>
      let chars ← valueChars known .plain value
      return some (assignment.1, String.ofList chars)

/-- Variables with those of some lines added. A variable keeps the value that it has, and nothing
after the first fault counts. -/
def Variables.addLines (known : Variables) : List (Option (List Char)) → Variables
  | [] | none :: _ => known
  | some line :: rest =>
    match variableOfLine known line with
    | none => known
    | some none => Variables.addLines known rest
    | some (some (name, value)) =>
      let longer := if (known.find? name).isSome then known else known ++ [(name, value)]
      Variables.addLines longer rest

/-- Variables with those of a file added. -/
def Variables.addFile (known : Variables) (text : String) : Variables :=
  let cs := match text.toList with
    | '\uFEFF' :: rest => rest
    | cs => cs
  known.addLines (entryLines [] .plain (rawLines cs))

end ContentApi
