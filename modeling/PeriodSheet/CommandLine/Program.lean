import PeriodSheet.Catalog
import PeriodSheet.CommandLine.Command
import PeriodSheet.CommandLine.Script
import PeriodSheet.CommandLine.Table
import PeriodSheet.Json.Writer

/-!
# The commands of the program

What each command reads, computes, writes and prints.  A command that fails says why, from the
outermost message to its cause, and has written nothing unless the failure came after a write.
-/

namespace PeriodSheet.CommandLine

open Text

/-- The surroundings of a command. -/
structure Surroundings where
  environment : String → Option String
  /-- Whether the printed text may be painted. -/
  painting : Bool
  /-- The settings that are read where the command line names none. -/
  defaultConfig : String

/-- How a command ends: what it printed and, if it failed, why. -/
structure Finish where
  printed : String
  failure : Option (List Cause) := none
deriving DecidableEq

namespace Finish

def ofResult : Except (List Cause) Finish → Finish
  | .ok finish => finish
  | .error causes => { printed := "", failure := some causes }

end Finish

/-! ### Reading files -/

/-- Settings with the overrides of the environment. -/
def overridden (surroundings : Surroundings) (settings : Settings) : Task Settings :=
  match settings.withEnvironment surroundings.environment with
  | (settings, none) => return settings
  | (_, some error) => throw (error.messages.map .message)

def settingsOfText (path content : String) : Task Settings :=
  match Settings.ofTomlText? content with
  | some settings => return settings
  | none => throw [.message ("Failed to parse config file " ++ path), .detail]

/-- Reads the settings: from the file that the command line names, which must be there, or else from
the default one, if it is there. -/
def loadSettings (surroundings : Surroundings) (config : Option String) : Task Settings := do
  let path := config.getD surroundings.defaultConfig
  match ← Task.read path with
  | .text content => overridden surroundings (← settingsOfText path content)
  | .unreadable => throw [.message ("Failed to read config file " ++ path), .detail]
  | .missing =>
    if config.isSome then Task.fail ("Config file does not exist: " ++ path)
    else overridden surroundings {}

/-- The last name of a path, without a slash after it. -/
def fileName (path : String) : List Char :=
  let names := path.toList.splitBy fun a b => (a == '/') == (b == '/')
  (names.reverse.find? fun name => name.head? != some '/' && name != ['.']).getD []

/-- Whether a path ends in `.json`, in any case of these letters; a name cannot begin with it. -/
def isJsonPath (path : String) : Bool :=
  let name := ((fileName path).map Char.toLower).reverse
  name.take 5 == ['n', 'o', 's', 'j', '.'] && 5 < name.length

/-- What is wrong with the text of a schema. -/
def catalogCauses (path : String) (error : CatalogError) : List Cause :=
  [.message ("Failed to parse schema file: " ++ path),
    match error with
    | .notToml => .labelled "invalid TOML schema: "
    | .notJson => .labelled "invalid JSON schema: "
    | .duplicateId id => .message (CatalogError.duplicateMessage id)]

/-- Reads a catalog; a JSON file is known by its name, any other is TOML. -/
def loadCatalog (path : String) : Task Catalog := do
  let content ← Task.readText path ("Schema file does not exist: " ++ path)
    ("Failed to read schema file: " ++ path)
  let read := if isJsonPath path then Catalog.ofJsonText else Catalog.ofTomlText
  match read content with
  | .error error => throw (catalogCauses path error)
  | .ok catalog =>
    if catalog.size = 0 then Task.fail ("Schema file defines no activities: " ++ path)
    else return catalog

def findActivity (catalog : Catalog) (idOrName : String) : Task Activity :=
  match catalog.find? idOrName with
  | some activity => return activity
  | none => Task.fail ("Unknown activity: " ++ idOrName)

def loadRecords (path : String) : Task (List Record) := do
  let content ← Task.readText path ("Values file does not exist: " ++ path)
    ("Failed to read values file: " ++ path)
  match (Json.parse? content).bind (Json.list? Record.ofJson?) with
  | some records => return records
  | none => throw [.message ("Failed to parse values file: " ++ path), .detail]

/-! ### Computing -/

/-- The keys of the records that a request selects. -/
def ComputeRequest.selected (request : ComputeRequest) (activity : Activity) (store : RecordStore) :
    List RecordKey :=
  (store.toList.map (·.key)).filter fun key =>
    key.activity == activity.id && request.client.all (· == key.client) &&
      request.year.all (some · == key.fiscalYear)

/-- Computes the records of some keys, one after another, and saves each. -/
def recomputeAll (plan : Plan) (range : PeriodRange) :
    RecordStore → List RecordKey → Except (RecordKey × StoreError) (RecordStore × List Computation)
  | store, [] => .ok (store, [])
  | store, key :: rest =>
    match store.recompute plan key range with
    | .error error => .error (key, error)
    | .ok (store, computation) =>
      (recomputeAll plan range store rest).map fun (store, computations) =>
        (store, computation :: computations)

/-- The computed sheets in a written form. -/
def written (format : OutputFormat) (painting : Bool) (computations : List Computation) : String :=
  match format with
  | .table =>
    "\n".intercalate (computations.map fun computation =>
      computation.sheet.table painting computation.carried)
  | .json =>
    (Json.ofList (fun computation => .record [("grid", computation.sheet.toJson),
      ("carried", .ofList CarryEvent.toJson computation.carried)]) computations).pretty ++ "\n"
  | .csv => Sheet.csv (computations.map (·.sheet))

def recordsText (store : RecordStore) : String :=
  (Json.ofList Record.toJson store.toList).pretty

/-- Computes records and prints their sheets. -/
def compute (surroundings : Surroundings) (settings : Settings) (request : ComputeRequest) :
    Task Finish := do
  let painting := surroundings.painting && !request.noColour
  let settings :=
    if request.overwriteCarry then { settings with carryPolicy := .overwrite } else settings
  if let some last := request.range.last then
    if last < request.range.first then
      Task.fail ("--to (" ++ ofNat last ++ ") must not be before --from (" ++
        ofNat request.range.first ++ ")")
  let activity ← findActivity (← loadCatalog request.schema) request.activity
  let store := RecordStore.ofList (← loadRecords request.values)
  let keys := request.selected activity store
  if keys.isEmpty then
    Task.fail ("No records of activity '" ++ activity.name ++ "' match the selection")
  match recomputeAll (.ofActivity settings activity) request.range store keys with
  | .error (key, error) =>
    throw [.message ("Failed to compute " ++ key.describe), .message error.message]
  | .ok (store, computations) =>
    if request.writeBack then
      Task.writeText request.values (recordsText store)
        ("Failed to write records to: " ++ request.values)
    let text := written request.format painting computations
    match request.output with
    | none => return { printed := text }
    | some path =>
      Task.writeText path text ("Failed to write output to: " ++ path)
      return { printed := "Results saved to: " ++
        { letters := some .brightGreen : Paint }.apply painting path ++ "\n" }

/-! ### Checking -/

def issueJson (entry : Activity × Issue) : Json :=
  .record ([("activity_id", .integer entry.1.id), ("activity", .text entry.1.name)] ++
    (entry.2.toJson.members?).getD [])

def issueLines (painting : Bool) (activity : Activity) : String :=
  let issues := activity.check
  let status :=
    if issues.any (·.isError) then
      { bold := true, letters := some .red : Paint }.apply painting "invalid"
    else if issues.isEmpty then
      { bold := true, letters := some .brightGreen : Paint }.apply painting "ok"
    else { bold := true, letters := some .yellow : Paint }.apply painting "ok with warnings"
  let line (issue : Issue) : String :=
    let colour := if issue.isError then Colour.red else Colour.yellow
    "  " ++ { letters := some colour : Paint }.apply painting issue.severity.label ++ " [" ++
      { letters := some .cyan : Paint }.apply painting issue.subject ++ "] " ++
      issue.cause.message ++ "\n"
  ofInt activity.id ++ " " ++ { bold := true : Paint }.apply painting activity.name ++ " (" ++
    status ++ ")\n" ++ String.join (issues.map line)

/-- Checks activities and prints their issues; errors among them are a failure. -/
def check (surroundings : Surroundings) (request : CheckRequest) : Task Finish := do
  let painting := surroundings.painting && !request.noColour
  let catalog ← loadCatalog request.schema
  let activities ← match request.activity with
    | some idOrName => do pure [← findActivity catalog idOrName]
    | none => pure catalog.toList
  let issues := activities.flatMap fun activity => activity.check.map fun issue => (activity, issue)
  let printed :=
    if request.json then (Json.ofList issueJson issues).pretty ++ "\n"
    else String.join (activities.map (issueLines painting))
  let errors := issues.countP (·.2.isError)
  let failure :=
    if errors = 0 then none
    else some [.message (ofNat errors ++ " schema error(s) found, the schema cannot be saved")]
  return { printed, failure }

/-! ### Evaluating -/

/-- The name and the value of a pair; brackets around the name are not part of it. -/
def pairOf (pair : String) : Except String (String × String) :=
  match pair.toList.dropWhile (· ≠ '=') with
  | [] => .error ("Expected NAME=VALUE, got '" ++ pair ++ "'")
  | _ :: value =>
    let opened := (trimChars (pair.toList.takeWhile (· ≠ '='))).dropWhile (· == '[')
    let name := (opened.reverse.dropWhile (· == ']')).reverse
    if name.isEmpty then .error ("Missing field name in '" ++ pair ++ "'")
    else .ok (String.ofList name, String.ofList value)

/-- The values of pairs; of several with one name the last stands. -/
def valuesOf (pairs : List String) : Except String (List (String × String)) := do
  let entries ← pairs.mapM pairOf
  return entries.foldl (fun kept entry => kept.filter (·.1 != entry.1) ++ [entry]) []

/-- Evaluates a formula and prints its value. -/
def evaluate (surroundings : Surroundings) (settings : Settings) (request : EvaluateRequest) :
    Task Finish := do
  if settings.maxFormulaLength < request.formula.length then
    Task.fail ("Formula is longer than the configured limit of " ++
      ofNat settings.maxFormulaLength ++ " characters")
  if let some (schema, idOrName) := request.context then
    let activity ← findActivity (← loadCatalog schema) idOrName
    if let some rejection := Formula.check (activity.activeFields.map (·.referable)) request.formula
    then
      throw [.message ("Formula is not valid for activity '" ++ activity.name ++ "'"),
        .message rejection.message]
  match valuesOf request.values with
  | .error message => Task.fail message
  | .ok values =>
    match Formula.evalText (.ofTexts values) request.formula with
    | .error error => throw [.message "Failed to evaluate formula", .message error.message]
    | .ok value =>
      let text := settings.numberFormat.format value
      return { printed := { bold := true : Paint }.apply surroundings.painting text ++ "\n" }

/-! ### Running -/

def Invocation.script (surroundings : Surroundings) (invocation : Invocation) : Script Finish := do
  let task : Task Finish := do
    let settings ← loadSettings surroundings invocation.config
    match invocation.command with
    | .compute request => compute surroundings settings request
    | .check request => check surroundings request
    | .evaluate request => evaluate surroundings settings request
  return .ofResult (← task.run)

end PeriodSheet.CommandLine
