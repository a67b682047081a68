import PeriodSheet.CommandLine.Grammar
import PeriodSheet.PeriodRange
import PeriodSheet.Power

/-!
# Commands

What a command line asks the program to do: compute records, check schemas, or evaluate a formula.
Options of the program itself stand before the command's name or among the command's own.
-/

namespace PeriodSheet.CommandLine

/-- How computed records are written. -/
inductive OutputFormat where
  | table
  | json
  | csv
deriving DecidableEq

structure ComputeRequest where
  schema : String
  values : String
  activity : String
  client : Option Int
  year : Option Int
  range : PeriodRange
  overwriteCarry : Bool
  writeBack : Bool
  format : OutputFormat
  output : Option String
  noColour : Bool
deriving DecidableEq

/-- A request to check the activities of a schema. -/
structure CheckRequest where
  schema : String
  activity : Option String
  json : Bool
  noColour : Bool
deriving DecidableEq

structure EvaluateRequest where
  formula : String
  values : List String
  /-- A schema, and an activity of it, that the formula's fields must belong to. -/
  context : Option (String × String)
deriving DecidableEq

inductive Command where
  | compute (request : ComputeRequest)
  | check (request : CheckRequest)
  | evaluate (request : EvaluateRequest)
deriving DecidableEq

/-- A command with the options of the program. -/
structure Invocation where
  config : Option String
  verbose : Bool
  command : Command
deriving DecidableEq

/-! ### Forms -/

def commonOptions : List OptionForm :=
  [{ name := "config", kind := .path },
    { name := "verbose", letter := some 'v', kind := .flag },
    { name := "help", letter := some 'h', kind := .help }]

def programForm : CommandForm :=
  { name := "activity-engine"
    options := commonOptions ++ [{ name := "version", letter := some 'V', kind := .version }] }

def computeForm : CommandForm :=
  { name := "compute"
    options := commonOptions ++
      [{ name := "schema", letter := some 's', kind := .path },
        { name := "values", kind := .path },
        { name := "activity", letter := some 'a', kind := .text },
        { name := "client", letter := some 'c'
          kind := .integer (-(twoPow 63 : Int)) (twoPow 63 - 1 : Nat) },
        { name := "year", letter := some 'y'
          kind := .integer (-(twoPow 31 : Int)) (twoPow 31 - 1 : Nat) },
        { name := "from", kind := .integer 0 (twoPow 32 - 1 : Nat) },
        { name := "to", kind := .integer 0 (twoPow 32 - 1 : Nat) },
        { name := "overwrite-carry", kind := .flag },
        { name := "write-back", kind := .flag },
        { name := "format", letter := some 'f', kind := .word ["table", "json", "csv"] },
        { name := "output", letter := some 'o', kind := .path },
        { name := "no-color", kind := .flag }]
    required := ["schema", "values", "activity"] }

def checkForm : CommandForm :=
  { name := "validate"
    options := commonOptions ++
      [{ name := "schema", letter := some 's', kind := .path },
        { name := "activity", letter := some 'a', kind := .text },
        { name := "json", kind := .flag },
        { name := "no-color", kind := .flag }]
    required := ["schema"] }

def evaluateForm : CommandForm :=
  { name := "eval"
    options := commonOptions ++
      [{ name := "value", kind := .text, repeats := true },
        { name := "fields", letter := some 'f', kind := .path },
        { name := "activity", letter := some 'a', kind := .text }]
    operands := ["formula"]
    requires := [("fields", "activity"), ("activity", "fields")] }

/-! ### Requests -/

def OutputFormat.ofWord : String → OutputFormat
  | "json" => .json
  | "csv" => .csv
  | _ => .table

def ComputeRequest.ofReading (reading : Reading) : ComputeRequest :=
  { schema := (reading.value? "schema").getD ""
    values := (reading.value? "values").getD ""
    activity := (reading.value? "activity").getD ""
    client := reading.integer? "client"
    year := reading.integer? "year"
    range :=
      { first := ((reading.integer? "from").getD 1).toNat
        last := (reading.integer? "to").map Int.toNat }
    overwriteCarry := reading.has "overwrite-carry"
    writeBack := reading.has "write-back"
    format := .ofWord ((reading.value? "format").getD "table")
    output := reading.value? "output"
    noColour := reading.has "no-color" }

def CheckRequest.ofReading (reading : Reading) : CheckRequest :=
  { schema := (reading.value? "schema").getD ""
    activity := reading.value? "activity"
    json := reading.has "json"
    noColour := reading.has "no-color" }

def EvaluateRequest.ofReading (reading : Reading) : EvaluateRequest :=
  { formula := reading.operands.headD ""
    values := reading.values "value"
    context :=
      match reading.value? "fields", reading.value? "activity" with
      | some schema, some activity => some (schema, activity)
      | _, _ => none }

/-- The commands, each with its form and its request. -/
def commands : List (CommandForm × (Reading → Command)) :=
  [(computeForm, fun reading => .compute (.ofReading reading)),
    (checkForm, fun reading => .check (.ofReading reading)),
    (evaluateForm, fun reading => .evaluate (.ofReading reading))]

/-- Whether a word names a command; `help` does too. -/
def isCommandName (word : String) : Bool :=
  word == "help" || commands.any (·.1.name == word)

/-- What a word that is neither an option nor a command is, before any command. -/
def strayWord (reading : Reading) (word : String) : UsageError :=
  if reading.ended && isCommandName word then .unknownArgument else .unknownCommand

/-- What asking for help on some words comes to: they can name one command at most. -/
def helpOn : List String → UsageError
  | [] => .help
  | [word] => if isCommandName word then .help else .unknownCommand
  | _ => .unknownCommand

namespace Invocation

/-- Reads the words after the name of a command, with the options that stood before it. -/
def ofCommand (form : CommandForm) (command : Reading → Command) (before : Reading)
    (words : List String) : Except UsageError Invocation := do
  let reading ← form.read words
  let before ← before.settle
  return {
    config := reading.value? "config" <|> before.value? "config"
    verbose := reading.has "verbose" || before.has "verbose"
    command := command reading }

/-- Reads the words that are left, given what stood before them. -/
def ofWords (before : Reading) : List String → Except UsageError Invocation
  | [] => do
    let before ← before.settle
    .error (if before.given.isEmpty then .nothingGiven else .missingCommand)
  | word :: rest =>
    if !before.ended && !before.isAwaiting && word == "help" then .error (helpOn rest)
    else
      match commands.find? (·.1.name == word), before.ended || before.isAwaiting with
      | some (form, command), false => ofCommand form command before rest
      | _, _ =>
        match before.readWord programForm strayWord word with
        | .error error => .error error
        | .ok before => ofWords before rest

/-- Reads a command line, without the name of the program. -/
def parse (words : List String) : Except UsageError Invocation :=
  ofWords {} words

end Invocation

end PeriodSheet.CommandLine
