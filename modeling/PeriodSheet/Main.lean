import PeriodSheet.CommandLine.Program

/-!
# The program

Runs a command line on the real file system and environment.
-/

namespace PeriodSheet.Main

open CommandLine

def helpText : String :=
  "Usage: activity-engine [OPTIONS] <COMMAND>\n\nCommands:\n" ++
    "  compute   Compute client records and print the resulting grids\n" ++
    "  validate  Check activity schemas and report every issue found\n" ++
    "  eval      Evaluate a single formula\n\nOptions:\n" ++
    "      --config <PATH>  Settings file\n" ++
    "  -h, --help           Print help\n  -V, --version        Print version\n"

/-- What is shown for a command line that is not run. -/
def usageText : UsageError → String
  | .help => helpText
  | .version => "activity-engine 0.3.0\n"
  | .nothingGiven => helpText
  | .missingCommand => "error: a command is missing\n"
  | .unknownCommand => "error: unknown command\n"
  | .unknownArgument => "error: unknown argument\n"
  | .missingArgument => "error: a required argument is missing\n"
  | .invalidValue => "error: a value is missing or not one of those allowed\n"
  | .badNumber => "error: a value is not a number within bounds\n"
  | .unexpectedValue => "error: an option takes no value\n"
  | .repeatedOption => "error: an option is given more than once\n"

/-- Reads the file at a path.  A path that goes on after a file, or with too long a name, leads to
nothing: that is found out when the file is opened, and the error then names the path. -/
def readFile (path : String) : IO FileText := do
  try return .text (← IO.FS.readFile path)
  catch
    | .noFileOrDirectory .. => return .missing
    | .inappropriateType (some _) .. => return .missing
    | .invalidArgument (some _) .. => return .missing
    | _ => return .unreadable

/-- Writes a text into the file at a path, and says whether that worked. -/
def writeFile (path content : String) : IO Bool := do
  try
    IO.FS.writeFile path content
    return true
  catch _ => return false

/-- Runs a script on the file system. -/
def perform {α : Type} : Script α → IO α
  | .done result => return result
  | .read path next => do perform (next (← readFile path))
  | .write path content next => do perform (next (← writeFile path content))

/-- The settings that are read where the command line names none. -/
def defaultConfig : IO String := do
  let folder ← match ← IO.getEnv "XDG_CONFIG_HOME" with
    | some folder => pure folder
    | none => return ((← IO.getEnv "HOME").getD ".") ++ "/.config/activity-engine/config.toml"
  return folder ++ "/activity-engine/config.toml"

/-- The variables that override settings. -/
def overridingNames : List String :=
  ["ACTIVITY_ENGINE_DECIMAL_SEPARATOR", "ACTIVITY_ENGINE_FRACTION_DIGITS",
    "ACTIVITY_ENGINE_CARRY_POLICY"]

/-- Prints how a command ended. -/
def report (finish : Finish) : IO UInt32 := do
  IO.print finish.printed
  match finish.failure with
  | none => return 0
  | some causes =>
    for cause in causes do
      IO.eprintln ("error: " ++ cause.text "it cannot be read or written as asked")
    return 1

end PeriodSheet.Main

open PeriodSheet PeriodSheet.CommandLine PeriodSheet.Main in
def main (words : List String) : IO UInt32 := do
  match Invocation.parse words with
  | .error error =>
    if error.isRequest then
      IO.print (usageText error)
      return 0
    else
      IO.eprint (usageText error)
      return 2
  | .ok invocation =>
    let values ← overridingNames.mapM fun name => return (name, ← IO.getEnv name)
    let surroundings : Surroundings :=
      { environment := fun name => (values.lookup name).bind id
        painting := ← (← IO.getStdout).isTty
        defaultConfig := ← defaultConfig }
    report (← perform (invocation.script surroundings))
