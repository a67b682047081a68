import PeriodSheet.FieldName
import PeriodSheet.Formula.Check

/-!
# Fields

The definition of one field of an activity: its name, what values it holds, how the sheet shows it,
and, for a calculated field, the formula that gives its value.
-/

namespace PeriodSheet

/-- What values a field holds. -/
inductive DataType where
  | text
  | longText
  | number
  | decimal
  | date
  | boolean
  | dropdown
deriving DecidableEq

namespace DataType

def label : DataType → String
  | .text => "Text"
  | .longText => "Long text"
  | .number => "Number"
  | .decimal => "Decimal"
  | .date => "Date"
  | .boolean => "Yes/No"
  | .dropdown => "Dropdown"

/-- Whether the values take part in arithmetic and can be ordered. -/
def isNumeric : DataType → Bool
  | .number => true
  | .decimal => true
  | _ => false

end DataType

structure Field where
  name : FieldName
  label : String
  dataType : DataType := .text
  isRequired : Bool := false
  showInList : Bool := true
  isFilter : Bool := false
  /-- The values that a dropdown offers. -/
  options : List String := []
  defaultValue : Option String := none
  displayOrder : Int := 0
  /-- A hint for the width of the column, in characters. -/
  displayWidth : Option Nat := none
  isActive : Bool := true
  formula : Option String := none
  isCompletionIndicator : Bool := false
  isResultIndicator : Bool := false
  /-- The periods in which the field is shown; all of them where the list is empty. -/
  visiblePeriods : List Nat := []
deriving DecidableEq

namespace Field

/-- An active field that the user fills in. -/
def entered (name : FieldName) (dataType : DataType) : Field :=
  { name, label := name.spelling, dataType }

/-- An active field that a formula fills in. -/
def calculated (name : FieldName) (formula : String) : Field :=
  { name, label := name.spelling, dataType := .decimal, formula := some formula }

def isCalculated (field : Field) : Bool :=
  field.formula.isSome

/-- Whether the field is shown, and computed, in a period. -/
def isVisibleIn (field : Field) (period : Nat) : Bool :=
  field.visiblePeriods.isEmpty || field.visiblePeriods.contains period

/-- The field as formulas see it. -/
def referable (field : Field) : Referable :=
  ⟨field.name, field.isCalculated⟩

/-- Whether the field is shown before another, or in the same place. -/
def displaysBefore (a b : Field) : Bool :=
  a.displayOrder < b.displayOrder ||
    (a.displayOrder == b.displayOrder && (a.name.key < b.name.key || a.name.key == b.name.key))

/-- Fields as the sheet lists them: by display order, then by name. -/
def sortForDisplay (fields : List Field) : List Field :=
  fields.mergeSort displaysBefore

def find? (fields : List Field) (name : FieldName) : Option Field :=
  List.find? (fun field => field.name.same name) fields

end Field

end PeriodSheet
