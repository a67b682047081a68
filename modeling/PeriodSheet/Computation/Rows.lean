import PeriodSheet.Computation.Outcome
import PeriodSheet.Sheet

/-!
# Rows of a computed sheet

Builds the row of a period from its view, its outcome and its entry, and sums up rows: the totals of
the numeric columns and the badge of the latest complete period.
-/

namespace PeriodSheet

open Text

/-- What is known about a period when its row is built. -/
structure ComputedPeriod where
  period : Nat
  view : PeriodView
  outcome : Outcome
  /-- The entry of the period with its new computed values. -/
  entry : PeriodEntry

namespace ComputedPeriod

/-- The text that counts as the value of a field: the computed one of a calculated field, else the
valid raw or default text. -/
def effective? (computed : ComputedPeriod) (field : Field) : Option String :=
  if field.isCalculated then computed.entry.computed? field.name
  else computed.view.raw.get? field.name

def error? (computed : ComputedPeriod) (field : Field) : Option CellError :=
  if field.isCalculated then (computed.outcome.failures.get? field.name).map .formula
  else (computed.view.invalid.get? field.name).map .invalid

/-- The style of a field's cell; only a value without error is styled. -/
def cellStyle (rules : List ColourRule) (computed : ComputedPeriod) (field : Field) : Style :=
  match computed.effective? field, computed.error? field with
  | some value, none => ColourRule.cellStyle rules field.name value
  | _, _ => .neutral

def cell (rules : List ColourRule) (computed : ComputedPeriod) (field : Field) : Cell :=
  { field := field.name
    raw := if field.isCalculated then none else computed.entry.raw? field.name
    computed := computed.entry.computed? field.name
    style := computed.cellStyle rules field
    error := computed.error? field
    missingRequired :=
      field.isRequired && !field.isCalculated && (computed.effective? field).isNone
    carried := computed.entry.isCarried field.name }

/-- The values of a row, as row rules see them. -/
def values (computed : ComputedPeriod) (fields : List Field) : NameMap String :=
  NameMap.ofList (fields.filterMap fun field =>
    (computed.effective? field).map fun value => (field.name, value))

/-- Whether a period is complete.  A calculated completion field needs a value and any other one a
valid text of its own, for which a default does not count; without a completion field, any raw text
will do. -/
def isComplete (computed : ComputedPeriod) (completion : Option Field) : Bool :=
  match completion with
  | some field =>
    if field.isCalculated then (computed.effective? field).isSome
    else (computed.entry.raw? field.name).isSome && !computed.view.invalid.contains field.name
  | none => computed.entry.raw.toList.any fun e => !isBlankText e.2

def row (plan : Plan) (computed : ComputedPeriod) : Row :=
  let rules := plan.activity.colourRules
  let fields := plan.fields.filter (·.isVisibleIn computed.period)
  { period := computed.period
    label := plan.activity.periodLabel computed.period
    cells := fields.map (computed.cell rules)
    style := ColourRule.rowStyle rules (computed.values fields)
    isComplete := computed.isComplete plan.activity.completionField? }

end ComputedPeriod

namespace Sheet

/-- The number of a field in a row, where its cell has one and no error. -/
def numberIn? (field : FieldName) (row : Row) : Option Decimal := do
  let cell ← row.cell? field
  if cell.error.isSome then none
  else Decimal.ofEntered? (← cell.text?)

/-- The sum of a field over rows. -/
def total (format : NumberFormat) (rows : List Row) (field : FieldName) : String :=
  format.format ((rows.filterMap (numberIn? field)).foldl Decimal.saturatingAdd .zero)

def isSummed (field : Field) : Bool :=
  field.isCalculated || field.dataType.isNumeric

def totalsOf (format : NumberFormat) (fields : List Field) (rows : List Row) : NameMap String :=
  NameMap.ofLast ((fields.filter isSummed).map fun field =>
    (field.name, total format rows field.name))

/-- The badge of a result field: its number in the last complete row. -/
def badgeOf? (result : Option Field) (rows : List Row) : Option Badge := do
  let field ← result
  -- the last complete row decides, also where its cell has no number and an earlier one has
  let row ← rows.reverse.find? (·.isComplete)
  let cell ← row.cell? field.name
  if cell.error.isSome then none
  else
    let value ← cell.text?
    let number ← Decimal.ofEntered? value
    return { period := row.period, field := field.name, value, isNegative := number.isNegative }

def ofRows (plan : Plan) (record : Record) (rows : List Row) : Sheet :=
  { activityId := plan.activity.id
    activity := plan.activity.name
    client := record.client
    fiscalYear := record.fiscalYear
    columns := plan.fields.map .ofField
    rows
    totals :=
      if plan.activity.showsTotals then
        some (totalsOf plan.settings.numberFormat plan.fields rows)
      else none
    badge := badgeOf? plan.activity.resultField? rows }

end Sheet

end PeriodSheet
