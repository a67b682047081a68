import PeriodSheet.Plan
import PeriodSheet.Record

/-!
# The outcome of a period

The values that formulas see in a period, and what its calculated fields come to.  Formulas read a
calculated field as the rounded number it came to and any other field as its raw text; a blank text
gives way to the field's default.  A field whose formula refers to one that failed fails as well.
-/

namespace PeriodSheet

/-- The raw values of a period as formulas see them. -/
structure PeriodView where
  /-- The texts that are values of their fields, defaults included. -/
  raw : NameMap String := .empty
  /-- The fields whose text is not a value. -/
  invalid : NameMap ValueError := .empty

namespace PeriodView

/-- The text that a field has in a period: the entry's own, else the default. -/
def textOf? (entry : Option PeriodEntry) (field : Field) : Option String :=
  entry.bind (·.raw? field.name) <|> field.defaultValue

def add (entry : Option PeriodEntry) (view : PeriodView) (field : Field) : PeriodView :=
  match textOf? entry field with
  | none => view
  | some text =>
    match Value.parse field text with
    | .ok (some _) => { view with raw := view.raw.insert field.name text }
    | .ok none => view
    | .error error => { view with invalid := view.invalid.insert field.name error }

/-- The view of the fields that a user fills in, given the entry of the period. -/
def ofFields (fields : List Field) (entry : Option PeriodEntry) : PeriodView :=
  (fields.filter (!·.isCalculated)).foldl (add entry) {}

end PeriodView

/-- What the calculated fields of a period come to. -/
structure Outcome where
  /-- The rounded numbers. -/
  computed : NameMap Decimal := .empty
  failures : NameMap FormulaError := .empty
  notices : List Notice := []

namespace Outcome

/-- What a reference stands for: a number that was computed, else a raw text. -/
def source (view : PeriodView) (computed : NameMap Decimal) : Source := fun name =>
  match computed.get? name with
  | some value => .number value
  | none =>
    match view.raw.get? name with
    | some raw => .ofRaw raw
    | none => .missing

/-- The value of a planned field: its own failure, that of a reference, or its formula's value. -/
def valueOf (plan : Plan) (view : PeriodView) (outcome : Outcome) (planned : PlannedField) :
    Except FormulaError Decimal :=
  match planned.step with
  | .fail error => .error error
  | .evaluate formula =>
    -- by rank, so that the reference that is reported need not come first in the formula
    match (plan.graph.dependencies planned.name).find? outcome.failures.contains with
    | some name => .error (.dependencyFailed name.spelling)
    | none => formula.eval (source view outcome.computed)

/-- Whether a planned field is shown in a period. -/
def isPlannedIn (plan : Plan) (period : Nat) (planned : PlannedField) : Bool :=
  (plan.field? planned.name).any (·.isVisibleIn period)

/-- Adds a planned field to the outcome. -/
def add (plan : Plan) (period : Nat) (view : PeriodView) (outcome : Outcome)
    (planned : PlannedField) : Outcome :=
  match valueOf plan view outcome planned with
  | .ok value =>
    let rounded := plan.settings.numberFormat.round value
    { outcome with computed := outcome.computed.insert planned.name rounded }
  | .error error =>
    { outcome with
      failures := outcome.failures.insert planned.name error
      notices := outcome.notices ++ [.failed period planned.name error] }

/-- The outcome of a period: its planned fields in the order of evaluation. -/
def ofView (plan : Plan) (period : Nat) (view : PeriodView) : Outcome :=
  (plan.steps.filter (isPlannedIn plan period)).foldl (add plan period view) {}

def texts (format : NumberFormat) (outcome : Outcome) : NameMap String :=
  outcome.computed.map format.format

end Outcome

end PeriodSheet
