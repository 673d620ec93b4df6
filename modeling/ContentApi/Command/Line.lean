import ContentApi.Command.Basic
import ContentApi.Url.Form

/-! Command lines: a command together with the options that every command has. -/

namespace ContentApi

/-- A command and what holds for whichever command is given. -/
structure CommandLine where
  /-- The token, if one is given. -/
  token : Option String
  /-- The base of the service, if one is given. -/
  baseUrl : Option String
  /-- The members that are asked for, all usual ones if there are none. -/
  fields : List String
  /-- The command. -/
  command : Command

/-- The options that every command has, which may stand in each part of a command line. -/
def commonOptions : List OptionForm :=
  [plainOption "token" .text, plainOption "base-url" .text, ⟨"fields", none, .text, true⟩]

/-- The words of commands that come next after some words. -/
def nextWords (before : List String) : List String :=
  CommandForm.all.filterMap fun form =>
    if before.isPrefixOf form.path then form.path[before.length]? else none

/-- What the request for help on a command leads to, which there must be. -/
def helpOn (before : List String) : List String → Stopped
  | [] => .help
  | word :: rest =>
    if (nextWords before).contains word then helpOn (before ++ [word]) rest
    else if word = "help" && rest.isEmpty && !(nextWords before).isEmpty then .help
    else .rejected

/-- What nothing is given in. -/
def Given.nothing : Given := ⟨[], []⟩

/-- The part of a command line in which words of commands are looked for. -/
def wordLevel (hasVersion : Bool) : Level := ⟨commonOptions, none, hasVersion⟩

/-- The part of a command line that belongs to a command. -/
def CommandForm.level (form : CommandForm) : Level :=
  ⟨form.options ++ commonOptions, some form.operands, false⟩

/-- Reads the part of a command line that belongs to a command. -/
def CommandForm.read (form : CommandForm) (words : List String) :
    Except Stopped (Given × Command) :=
  match form.level.read .nothing words with
  | .error reason => .error reason
  | .ok (given, _) =>
    match form.make given with
    | some command => .ok (given, command)
    | none => .error .rejected

/-- Reads a command line from some words of a command on, of which there are at most so many more,
with what is given before each of them. -/
def readCommand (before : List String) :
    Nat → List String → Except Stopped (List Given × Command)
  | more, words =>
    match CommandForm.all.find? (·.path == before) with
    | some form => (form.read words).map fun read => ([read.1], read.2)
    | none =>
      match more with
      | 0 => .error .rejected
      | more + 1 =>
        match (wordLevel before.isEmpty).read .nothing words with
        | .error reason => .error reason
        | .ok (_, []) => .error .rejected
        | .ok (given, word :: rest) =>
          if (nextWords before).contains word then
            (readCommand (before ++ [word]) more rest).map fun read => (given :: read.1, read.2)
          else if word = "help" then .error (helpOn before rest)
          else .error .rejected

/-- The values of a common option in the last part of a command line that has any. -/
def commonValues (parts : List Given) (name : String) : List String :=
  ((parts.map (·.values name)).reverse.find? (!·.isEmpty)).getD []

/-- The pieces of values that commas divide. -/
def commaPieces (values : List String) : List String :=
  values.flatMap fun value => (splitChars (· == ',') value.toList).map String.ofList

/-- Reads a command line. A token may also come from the variable for it. -/
def CommandLine.read (tokenVariable : Option String) (words : List String) :
    Except Stopped CommandLine :=
  (readCommand [] 2 words).map fun read =>
    { token := (commonValues read.1 "token").head?.or tokenVariable
      baseUrl := (commonValues read.1 "base-url").head?
      fields := commaPieces (commonValues read.1 "fields")
      command := read.2 }

end ContentApi
