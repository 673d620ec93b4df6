import ContentApi.Command.Job
import ContentApi.Command.Line
import ContentApi.Config.Layers

/-! The program as a whole: from the words of a command line to what is printed and how it ends. -/

namespace ContentApi

/-- What the program finds where it starts. -/
structure Surroundings where
  /-- The variables. -/
  environment : Variables
  /-- The files of the directory with their texts. -/
  files : List (String × String)

/-- How the program ends. -/
structure Ending where
  /-- The code that it ends with. -/
  code : Nat
  /-- What is printed. -/
  printed : String
  /-- The first line of the report of a failure, unless there is none to report. -/
  report : Option String
  /-- The files to write. -/
  files : List (String × Bytes)

namespace Ending

/-- The end of a program that prints something. -/
def printing (text : String) : Ending := ⟨0, text, none, []⟩

/-- The end of a program that reports a failure, of which the first line counts. -/
def failing (report : String) : Ending :=
  ⟨1, "", some (String.ofList (report.toList.takeWhile (· ≠ '\n'))), []⟩

/-- The end of a program that rejects its words. -/
def rejecting : Ending := ⟨2, "", none, []⟩

/-- The end of a program that cannot write a file. -/
def unwritten (path : String) : Ending := failing ("writing " ++ path)

/-- The end of a program that has made a product. -/
def ofProduct : Product → Ending
  | .document value => printing (value.pretty 0 ++ "\n")
  | .file path content => ⟨0, "", none, [(path, content)]⟩

/-- The end of a program that has done its job. -/
def ofOutcome : Outcome Product → Ending
  | .complete product => ofProduct product
  | .failed failure => failing failure.message
  | .short => failing "too many pages"

/-- The end of a program whose words are not those of a command. -/
def ofStopped : Stopped → Ending
  | .rejected => rejecting
  | .help => printing ""
  | .version => printing "boxctl 0.1.0\n"

end Ending

/-- The file with variables. -/
def variablesFile : String := ".env"

/-- The file with settings. -/
def settingsFile : String := "box.toml"

/-- The variable with a token for the command line. -/
def tokenVariable : String := "BOX_TOKEN"

namespace Surroundings

/-- The text of a file. -/
def file? (s : Surroundings) (name : String) : Option String :=
  (s.files.find? (·.1 == name)).map (·.2)

/-- The variables with those of the file of variables added. -/
def allVariables (s : Surroundings) : Variables :=
  match s.file? variablesFile with
  | some text => s.environment.addFile text
  | none => s.environment

/-- The settings that are found. -/
def settings? (s : Surroundings) : Option Settings :=
  Settings.ofLayers? (s.file? settingsFile) s.allVariables

end Surroundings

/-- Settings with those of a command line in the place of others. -/
def CommandLine.override (line : CommandLine) (s : Settings) : Settings :=
  { s with token := line.token.getD s.token, baseUrl := line.baseUrl.getD s.baseUrl }

/-- Runs a command line with the settings that are found. -/
def CommandLine.run {σ : Type} (line : CommandLine) (settings : Option Settings)
    (transport : Transport σ) (pages : Nat) (world : σ) : Ending × σ :=
  match settings with
  | none => (.failing "loading Box configuration", world)
  | some settings =>
    match (line.override settings).connect with
    | .error failure => (.failing failure.message, world)
    | .ok connection =>
      let done := (line.command.job connection line.fields).run transport pages world
      (.ofOutcome done.1, done.2)

/-- Runs the program, for which at most so many pages are fetched. -/
def runProgram {σ : Type} (words : List String) (s : Surroundings) (transport : Transport σ)
    (pages : Nat) (world : σ) : Ending × σ :=
  -- The file of variables is looked at only when the words have been read.
  match CommandLine.read (s.environment.find? tokenVariable) words with
  | .error reason => (.ofStopped reason, world)
  | .ok line => line.run s.settings? transport pages world

end ContentApi
