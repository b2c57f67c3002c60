import LiteSql.Command.Run

/-!
# The command

Gives `Command.run` the files, the variables and the terminal of the process.
-/

namespace LiteSql.Command

/-- Why the system could not read a file. -/
def ReadFailure.ofError : IO.Error → ReadFailure
  | .inappropriateType _ 21 _ => .directory
  | .inappropriateType .. => .throughFile
  | .invalidArgument .. => .nameTooLong
  | _ => .missing

/-- Reads bytes as text. -/
def readText (source : IO ByteArray) : IO Reading := do
  try
    match String.fromUTF8? (← source) with
    | some text => return .ok text
    | none => return .error .notText
  catch e =>
    return .error (.ofError e)

/-- The directory of the user's settings. -/
def userSettingsFolder : IO (Option String) := do
  match ← IO.getEnv "XDG_CONFIG_HOME" with
  | some folder => if folder.startsWith "/" then return some folder else homeFolder
  | none => homeFolder
where
  homeFolder : IO (Option String) := do
    return (← IO.getEnv "HOME").map (· ++ "/.config")

/-- Runs a call with the files and variables of the process. -/
def runProcess (args : List String) : IO UInt32 := do
  let stdin ← IO.getStdin
  let stdout ← IO.getStdout
  let stderr ← IO.getStderr
  let names := [settingsVariable, "CLICOLOR_FORCE", "NO_COLOR", "CLICOLOR"]
  let environment ← names.filterMapM fun name => do
    return (← IO.getEnv name).map fun value => (name, value)
  let world : World IO := {
    read := fun name => readText (IO.FS.readBinFile name)
    input := readText stdin.readBinToEnd
    lookUp := fun name => environment.lookup name
    settingsFolder := ← userSettingsFolder
    onTerminal := ← stdout.isTty
  }
  let outcome ← run world args
  stdout.putStr (String.ofList outcome.output)
  stderr.putStr (String.ofList outcome.errors)
  return outcome.code.toUInt32

end LiteSql.Command

def main (args : List String) : IO UInt32 :=
  LiteSql.Command.runProcess args
