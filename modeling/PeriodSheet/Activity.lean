import PeriodSheet.Layout

/-!
# Activities

An activity is what clients have records of: a plain set of fields, or a layout of periods with
fields and rules.  Checking an activity lists everything that is wrong with its definition.
-/

namespace PeriodSheet

open Text

/-- The shape of an activity's records. -/
inductive Shape where
  /-- One record for each client. -/
  | plain (fields : List Field) (colourRules : List ColourRule)
  /-- One record for each client and fiscal year, split into periods. -/
  | periodic (layout : Layout)
deriving DecidableEq

structure Activity where
  id : Int
  name : String
  description : String := ""
  shape : Shape
deriving DecidableEq

namespace Activity

/-- An activity without periods and rules. -/
def plain (id : Int) (name : String) (fields : List Field) : Activity :=
  { id, name, shape := .plain fields [] }

def periodic (id : Int) (name : String) (layout : Layout) : Activity :=
  { id, name, shape := .periodic layout }

def layout? (activity : Activity) : Option Layout :=
  match activity.shape with
  | .periodic layout => some layout
  | .plain .. => none

def isPeriodic (activity : Activity) : Bool :=
  activity.layout?.isSome

/-- The number of periods; an activity without periods counts as one. -/
def periodCount (activity : Activity) : Nat :=
  match activity.shape with
  | .periodic layout => layout.periodCount
  | .plain .. => 1

/-- The label of a period; the activity's name where it has none. -/
def periodLabel (activity : Activity) (period : Nat) : String :=
  match activity.shape with
  | .periodic layout => layout.label period
  | .plain .. => activity.name

/-- The fields in the order of their definitions. -/
def fields (activity : Activity) : List Field :=
  match activity.shape with
  | .periodic layout => layout.fields
  | .plain fields _ => fields

/-- The active fields in display order. -/
def activeFields (activity : Activity) : List Field :=
  Field.sortForDisplay (activity.fields.filter (·.isActive))

def field? (activity : Activity) (name : FieldName) : Option Field :=
  Field.find? activity.fields name

def colourRules (activity : Activity) : List ColourRule :=
  match activity.shape with
  | .periodic layout => layout.colourRules
  | .plain _ colourRules => colourRules

def carryRules (activity : Activity) : List CarryRule :=
  match activity.shape with
  | .periodic layout => layout.carryRules
  | .plain .. => []

def showsTotals (activity : Activity) : Bool :=
  match activity.shape with
  | .periodic layout => layout.showTotals
  | .plain .. => false

/-- Whether a field tells that a period is complete. -/
def isCompletion (field : Field) : Bool :=
  field.isActive && field.isCompletionIndicator

def isResult (field : Field) : Bool :=
  field.isActive && field.isResultIndicator

def completionField? (activity : Activity) : Option Field :=
  activity.fields.find? isCompletion

def resultField? (activity : Activity) : Option Field :=
  activity.fields.find? isResult

/-! ### Sameness -/

/-- The activity with its numbers in the form that only their values decide. -/
def canonical (activity : Activity) : Activity :=
  match activity.shape with
  | .periodic layout => { activity with shape := .periodic layout.canonical }
  | .plain .. => activity

/-! ### Checking -/

/-- The issues of field names that are used more than once, in the spelling of their first use. -/
def checkNames (fields : List Field) : List Issue :=
  let names := fields.map (·.name)
  let counts := NameMap.ofList <|
    (distinctNames names).map fun name => (name, names.countP (·.same name))
  (counts.toList.filter (1 < ·.2)).map fun entry => ⟨entry.1.spelling, .duplicateField⟩

/-- What is wrong with a field among the fields of its activity. -/
def fieldCauses (fields : List Field) (field : Field) : List IssueCause :=
  let missing := if field.dataType = .dropdown ∧ field.options = [] then [.missingOptions] else []
  let default := match field.defaultValue with
    | none => []
    | some raw =>
      match Value.parse field raw with
      | .error error => [.invalidDefault error]
      | .ok _ => []
  let formula := match field.formula with
    | none => []
    | some source =>
      let others := fields.filter fun other => other.isActive && !other.name.same field.name
      match Formula.check (others.map (·.referable)) source with
      | some rejection => [.invalidFormula rejection]
      | none => []
  missing ++ default ++ formula

def checkField (fields : List Field) (field : Field) : List Issue :=
  (fieldCauses fields field).map fun cause => ⟨field.name.spelling, cause⟩

/-- The issue of a flag that more than one active field has. -/
def checkIndicator (activity : Activity) (isFlagged : Field → Bool) (label : String) : List Issue :=
  let count := activity.fields.countP isFlagged
  if 1 < count then [⟨activity.name, .duplicateIndicator count label⟩] else []

/-- What is wrong with the fields that a carry rule names. -/
def carryCauses (activity : Activity) (rule : CarryRule) : List IssueCause :=
  let unknown (name : FieldName) : List IssueCause :=
    if (activity.field? name).isSome then [] else [.unknownRuleField name.spelling]
  let calculated := match activity.field? rule.destination with
    | some field => if field.isCalculated then [.calculatedDestination field.name.spelling] else []
    | none => []
  let uncarriable (role : CarryRole) (name : FieldName) : List IssueCause :=
    match activity.field? name with
    | some field =>
      if !field.isCalculated && !field.dataType.isNumeric then
        [.uncarriable role field.name.spelling field.dataType]
      else []
    | none => []
  let missing :=
    if rule.isActive && activity.periodCount < 2 then [.missingDestinationPeriod] else []
  unknown rule.origin ++ unknown rule.destination ++ calculated ++
    uncarriable .origin rule.origin ++ uncarriable .destination rule.destination ++ missing

def checkCarryRule (activity : Activity) (rule : CarryRule) : List Issue :=
  (activity.carryCauses rule).map fun cause => ⟨"carry rule " ++ ofInt rule.id, cause⟩

/-- The issues of an activity: its periods, its fields, its flags and its rules, in this order. -/
def check (activity : Activity) : List Issue :=
  (match activity.layout? with
    | some layout => layout.check
    | none => []) ++
  checkNames activity.fields ++
  activity.fields.flatMap (checkField activity.fields) ++
  activity.checkIndicator isCompletion "completion" ++
  activity.checkIndicator isResult "result" ++
  activity.carryRules.flatMap activity.checkCarryRule ++
  activity.colourRules.flatMap (·.check activity.fields)

def savable (activity : Activity) : Bool :=
  Issue.savable activity.check

end Activity

end PeriodSheet
