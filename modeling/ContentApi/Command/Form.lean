import ContentApi.Config.Number

/-! The form of command lines: which words a command takes, and how they are read one by one. -/

namespace ContentApi

/-- What may stand as a value on a command line. -/
inductive ValueForm where
  | text
  /-- The path of a file, which is never empty. -/
  | path
  | count
  | choice (words : List String)

/-- Whether a value is of a form. -/
def ValueForm.accepts (form : ValueForm) (value : String) : Bool :=
  match form with
  | .text => true
  | .path => !value.isEmpty
  | .count => (countOf? value.toList).isSome
  | .choice words => words.contains value

/-- An option with a value. -/
structure OptionForm where
  /-- The name after two hyphens. -/
  name : String
  /-- The letter after one hyphen, if there is one. -/
  letter : Option Char
  /-- The form of the value. -/
  form : ValueForm
  /-- Whether the option may be given more than once. -/
  isRepeatable : Bool

/-- What a part of a command line gives. -/
structure Given where
  /-- The words without hyphens, the first one first. -/
  operands : List String
  /-- The options with their values, the first one first. -/
  options : List (String × String)

/-- Why the reading of a command line stops. -/
inductive Stopped where
  | rejected
  | help
  | version
  deriving DecidableEq

/-- What may stand in a part of a command line. -/
structure Level where
  /-- The options. -/
  options : List OptionForm
  /-- The words without hyphens, unless the first such word begins another part. -/
  operands : Option (List ValueForm)
  /-- Whether the version may be asked for. -/
  hasVersion : Bool

/-- What a word on a command line is. -/
inductive WordKind where
  | operand
  /-- After it all words are taken without regard to their hyphens. -/
  | escape
  | option (form : OptionForm) (value : Option String)
  | stop (reason : Stopped)

/-- The kind of a word that begins with two hyphens. -/
def Level.longWord (level : Level) (cs : List Char) : WordKind :=
  let name := String.ofList (cs.takeWhile (· ≠ '='))
  let value := match cs.dropWhile (· ≠ '=') with
    | '=' :: value => some (String.ofList value)
    | _ => none
  match level.options.find? (·.name == name) with
  | some form => .option form value
  | none =>
    if value.isSome then .stop .rejected
    else if name = "help" then .stop .help
    else if name = "version" && level.hasVersion then .stop .version
    else .stop .rejected

/-- The kind of a word that begins with one hyphen and a letter. -/
def Level.shortWord (level : Level) (c : Char) (rest : List Char) : WordKind :=
  match level.options.find? (·.letter == some c) with
  | some form =>
    match rest with
    | [] => .option form none
    | '=' :: value => .option form (some (String.ofList value))
    | value => .option form (some (String.ofList value))
  | none =>
    if c = 'h' then .stop .help
    else if c = 'V' && level.hasVersion then .stop .version
    else .stop .rejected

/-- The kind of a word. -/
def Level.kindOf (level : Level) (word : String) : WordKind :=
  match word.toList with
  | ['-', '-'] => .escape
  | '-' :: '-' :: rest => level.longWord rest
  | '-' :: c :: rest => level.shortWord c rest
  | _ => .operand

/-- Whether a word may be the value of the option before it. -/
def isValueWord (word : String) : Bool :=
  match word.toList with
  | '-' :: _ :: _ => false
  | _ => true

/-- Adds an option, which must have a value of its form and be the only one of its name unless it
may be repeated. -/
def Given.addOption (given : Given) (form : OptionForm) (value : String) :
    Except Stopped Given :=
  if !form.form.accepts value then .error .rejected
  else if !form.isRepeatable && given.options.any (·.1 == form.name) then .error .rejected
  else .ok { given with options := given.options ++ [(form.name, value)] }

/-- Adds a word without hyphens, for which there must be a place. -/
def Given.addOperand (given : Given) (forms : List ValueForm) (word : String) :
    Except Stopped Given :=
  match forms[given.operands.length]? with
  | some form =>
    if form.accepts word then .ok { given with operands := given.operands ++ [word] }
    else .error .rejected
  | none => .error .rejected

/-- Reads a part of a command line, and leaves the words of the part after it. -/
def Level.read (level : Level) (given : Given) : List String → Except Stopped (Given × List String)
  | [] => .ok (given, [])
  | word :: rest =>
    match level.kindOf word with
    | .stop reason => .error reason
    | .escape =>
      match level.operands with
      | some forms =>
        (rest.foldlM (fun (given : Given) word =>
          given.addOperand forms word) given).map fun given =>
          (given, [])
      | none => .error .rejected
    | .operand =>
      match level.operands with
      | some forms =>
        match given.addOperand forms word with
        | .ok given => level.read given rest
        | .error reason => .error reason
      | none => .ok (given, word :: rest)
    | .option form (some value) =>
      match given.addOption form value with
      | .ok given => level.read given rest
      | .error reason => .error reason
    | .option form none =>
      match rest with
      | value :: rest =>
        if isValueWord value then
          match given.addOption form value with
          | .ok given => level.read given rest
          | .error reason => .error reason
        else .error .rejected
      | [] => .error .rejected

namespace Given

/-- The word at a place. -/
def operand? (given : Given) (index : Nat) : Option String := given.operands[index]?

/-- The values of an option. -/
def values (given : Given) (name : String) : List String :=
  (given.options.filter (·.1 == name)).map (·.2)

/-- The value of an option that is not repeated. -/
def value? (given : Given) (name : String) : Option String := (given.values name).head?

/-- The number that an option has for a value. -/
def count? (given : Given) (name : String) : Option Nat :=
  (given.value? name).bind fun value => countOf? value.toList

end Given

end ContentApi
