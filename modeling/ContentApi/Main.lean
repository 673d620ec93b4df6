import ContentApi.Command.Program
import ContentApi.Http.Script

/-! The command line: looks around where the program starts, and does what the end of it asks for.
-/

namespace ContentApi

/-- The variables that the program has a use for. -/
def variablesHere : IO Variables :=
  (tokenVariable :: Settings.variableNames).filterMapM fun name => do
    return (← IO.getEnv name).map fun value => (name, value)

/-- The texts of the files that the program has a use for, of which any may be missing. -/
def filesHere : IO (List (String × String)) :=
  [variablesFile, settingsFile].filterMapM fun (name : String) => do
    try return some (name, ← IO.FS.readFile name)
    catch _ => return none

/-- Writes files, and gives the path of the first one that cannot be written. -/
def writeFiles : List (String × Bytes) → IO (Option String)
  | [] => return none
  | (path, content) :: rest => do
    try IO.FS.writeBinFile path ⟨content.toArray⟩
    catch _ => return some path
    writeFiles rest

/-- Does what an end asks for, and gives the code to end with. -/
def Ending.carryOut (ending : Ending) : IO UInt32 := do
  let ending := match ← writeFiles ending.files with
    | some path => Ending.unwritten path
    | none => ending
  IO.print ending.printed
  if let some report := ending.report then IO.eprintln ("Error: " ++ report)
  return ending.code.toUInt32

end ContentApi

open ContentApi in
/-- Runs a command line. Since no host can be reached from here, each request that it makes fails,
and one page is all that a listing comes to. -/
def main (words : List String) : IO UInt32 := do
  let surroundings : Surroundings := ⟨← variablesHere, ← filesHere⟩
  let done := runProgram words surroundings Transport.unreachable 1 ()
  done.1.carryOut
