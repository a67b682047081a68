import PeriodSheet.Record.Stored
import PeriodSheet.Value

/-!
# Sheets

What a computed record looks like to a reader: a column for each active field, a row for each
computed period, the sums of numeric columns, and a badge with the latest result.
-/

namespace PeriodSheet

/-- Why a cell has no value. -/
inductive CellError where
  /-- The formula of the field has no value. -/
  | formula (error : FormulaError)
  /-- The raw text is not a value of the field. -/
  | invalid (error : ValueError)
deriving DecidableEq

namespace CellError

def marker : CellError → String
  | .formula error => error.marker
  | .invalid _ => "#VALUE"

def message : CellError → String
  | .formula error => error.message
  | .invalid error => error.message

def toJson : CellError → Json
  | .formula error => .record [("source", .text "formula"), ("error", error.toJson)]
  | .invalid error => .record [("source", .text "invalid_value"), ("error", error.toJson)]

end CellError

structure Column where
  field : FieldName
  label : String
  dataType : DataType
  isCalculated : Bool
  width : Option Nat
deriving DecidableEq

namespace Column

/-- The column of a field; a field without a label shows its name. -/
def ofField (field : Field) : Column :=
  { field := field.name
    label := if field.label.isEmpty then field.name.spelling else field.label
    dataType := field.dataType
    isCalculated := field.isCalculated
    width := field.displayWidth }

def toJson (column : Column) : Json :=
  .ofMembers [
    some ("field", column.field.toJson),
    some ("label", .text column.label),
    some ("data_type", .text column.dataType.name),
    some ("calculated", .bool column.isCalculated),
    Field.optionMember "width" .ofNat column.width]

end Column

structure Cell where
  field : FieldName
  /-- The stored raw text, where there is one. -/
  raw : Option String
  /-- The written result of a calculated field. -/
  computed : Option String
  style : Style
  error : Option CellError
  /-- Whether a required field was left blank. -/
  missingRequired : Bool
  /-- Whether a carry rule wrote the raw text. -/
  carried : Bool
deriving DecidableEq

namespace Cell

/-- The computed text, or the raw text where there is none. -/
def text? (cell : Cell) : Option String :=
  cell.computed <|> cell.raw

/-- What a reader sees: the marker of the error, or else the text. -/
def display (cell : Cell) : String :=
  match cell.error with
  | some error => error.marker
  | none => cell.text?.getD ""

def toJson (cell : Cell) : Json :=
  .record [
    ("field", cell.field.toJson),
    ("raw", .ofOption .text cell.raw),
    ("computed", .ofOption .text cell.computed),
    ("style", cell.style.toJson),
    ("error", .ofOption CellError.toJson cell.error),
    ("missing_required", .bool cell.missingRequired),
    ("carried", .bool cell.carried)]

end Cell

structure Row where
  period : Nat
  label : String
  cells : List Cell
  style : Style
  isComplete : Bool
deriving DecidableEq

namespace Row

def cell? (row : Row) (field : FieldName) : Option Cell :=
  row.cells.find? (·.field.same field)

def failedCells (row : Row) : List Cell :=
  row.cells.filter (·.error.isSome)

def toJson (row : Row) : Json :=
  .record [
    ("period", .ofNat row.period),
    ("label", .text row.label),
    ("cells", .ofList Cell.toJson row.cells),
    ("style", row.style.toJson),
    ("complete", .bool row.isComplete)]

end Row

structure Badge where
  period : Nat
  field : FieldName
  value : String
  isNegative : Bool
deriving DecidableEq

def Badge.toJson (badge : Badge) : Json :=
  .record [
    ("period", .ofNat badge.period),
    ("field", badge.field.toJson),
    ("value", .text badge.value),
    ("color", .text (if badge.isNegative then "red" else "green"))]

structure Sheet where
  activityId : Int
  activity : String
  client : Int
  fiscalYear : Option Int
  columns : List Column
  rows : List Row
  /-- The sums of the numeric columns, where the activity shows them. -/
  totals : Option (NameMap String)
  badge : Option Badge
deriving DecidableEq

namespace Sheet

def row? (sheet : Sheet) (period : Nat) : Option Row :=
  sheet.rows.find? (·.period == period)

def errorCount (sheet : Sheet) : Nat :=
  (sheet.rows.flatMap (·.failedCells)).length

def toJson (sheet : Sheet) : Json :=
  .ofMembers [
    some ("activity_id", .integer sheet.activityId),
    some ("activity", .text sheet.activity),
    some ("client_id", .integer sheet.client),
    Field.optionMember "fiscal_year" .integer sheet.fiscalYear,
    some ("columns", .ofList Column.toJson sheet.columns),
    some ("rows", .ofList Row.toJson sheet.rows),
    Field.optionMember "totals" (NameMap.toJson .text) sheet.totals,
    some ("badge", .ofOption Badge.toJson sheet.badge)]

end Sheet

end PeriodSheet
