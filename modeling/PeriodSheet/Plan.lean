import PeriodSheet.Activity
import PeriodSheet.Dependency.Cycle
import PeriodSheet.Notice
import PeriodSheet.Settings

/-!
# Plans

An activity prepared for computing under some settings: its active fields in display order, and its
calculated fields in the order of evaluation, each with its formula or with the error that it has
whatever the values are.  A plan depends on the definition alone, so one serves many records.
-/

namespace PeriodSheet

/-- How a calculated field gets its value in every period. -/
inductive PlanStep where
  | evaluate (formula : Formula)
  /-- The field fails before any value is seen. -/
  | fail (error : FormulaError)
deriving DecidableEq

/-- A calculated field with its step. -/
structure PlannedField where
  name : FieldName
  step : PlanStep
deriving DecidableEq

/-- A calculated field with its formula as it was read. -/
structure ReadField where
  name : FieldName
  formula : Except FormulaError Formula

/-- An activity prepared for computing. -/
structure Plan where
  activity : Activity
  settings : Settings
  /-- The active fields in display order. -/
  fields : List Field
  /-- The calculated fields in the order of evaluation; those without an order stand last. -/
  steps : List PlannedField
  graph : DependencyGraph
deriving DecidableEq

/-- Reads a formula that may have at most so many characters. -/
def Formula.parseWithin (limit : Nat) (source : String) : Except FormulaError Formula :=
  if limit < source.length then .error (.malformed (.tooLong source.length limit) limit)
  else parse source

namespace ReadField

/-- The calculated fields among some, each with its formula as read. -/
def ofFields (limit : Nat) (fields : List Field) : List ReadField :=
  fields.filterMap fun field =>
    field.formula.map fun source => ⟨field.name, Formula.parseWithin limit source⟩

/-- The fields that the formula refers to; none where it could not be read. -/
def references (field : ReadField) : List FieldName :=
  match field.formula with
  | .ok formula => formula.references
  | .error _ => []

/-- The graph of references among calculated fields. -/
def graph (fields : List ReadField) : DependencyGraph :=
  .ofReferences (fields.map fun field => (field.name, field.references))

def step (field : ReadField) : PlanStep :=
  match field.formula with
  | .ok formula => .evaluate formula
  | .error error => .fail error

end ReadField

namespace Plan

/-- The step of a field that has an order: that of the first field of its name. -/
def orderedStep? (fields : List ReadField) (name : FieldName) : Option PlannedField :=
  (fields.find? (·.name.same name)).map fun field => ⟨name, field.step⟩

/-- The error of a field without an order: its cycle or, where it is only behind one, the first of
its references that has no order either. -/
def unorderedError (graph : DependencyGraph) (cycles : List (List FieldName))
    (remaining : List FieldName) (name : FieldName) : FormulaError :=
  match cycles.find? (·.any (·.same name)) with
  | some cycle => .ofCycle cycle
  | none =>
    match (graph.dependencies name).find? fun other => remaining.any (·.same other) with
    | some other => .dependencyFailed other.spelling
    -- no field of a graph comes to this: behind a cycle some reference has no order either
    | none => .dependencyFailed ""

/-- The steps of calculated fields whose references make up a graph. -/
def stepsOf (fields : List ReadField) (graph : DependencyGraph) : List PlannedField :=
  match graph.sort with
  | .ok resolved => resolved.filterMap (orderedStep? fields)
  | .error error =>
    let cycles := graph.cycles
    error.resolved.filterMap (orderedStep? fields) ++ error.remaining.map fun name =>
      ⟨name, .fail (unorderedError graph cycles error.remaining name)⟩

/-- Prepares an activity for computing. -/
def ofActivity (settings : Settings) (activity : Activity) : Plan :=
  let fields := activity.activeFields
  let calculated := ReadField.ofFields settings.maxFormulaLength fields
  let graph := ReadField.graph calculated
  { activity, settings, fields, graph, steps := stepsOf calculated graph }

def notices (plan : Plan) : List Notice :=
  match plan.graph.sort with
  | .ok _ => []
  | .error error => [.circular plan.activity.name error]

def field? (plan : Plan) (name : FieldName) : Option Field :=
  Field.find? plan.fields name

end Plan

end PeriodSheet
