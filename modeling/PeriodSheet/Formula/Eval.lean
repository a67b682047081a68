import PeriodSheet.Decimal.Arithmetic
import PeriodSheet.Decimal.Entered
import PeriodSheet.Formula.Parser
import PeriodSheet.NameMap

/-!
# Evaluating formulas

The value of an expression, given what each field stands for.  Evaluation goes from left to right
and stops at the first error.  A missing field counts as zero; a value that does not read as a
number is an error where the expression needs it.
-/

namespace PeriodSheet

open Text

/-- What a reference stands for. -/
inductive Operand where
  /-- The field is unknown, or its value blank. -/
  | missing
  | number (value : Decimal)
  /-- The field's value does not read as a number. -/
  | text (value : String)
deriving DecidableEq

/-- What the raw value of a field stands for. -/
def Operand.ofRaw (raw : String) : Operand :=
  if isBlankText raw then .missing
  else match Decimal.ofEntered? raw with
    | some value => .number value
    | none => .text raw

/-- What each field stands for while a formula is evaluated. -/
abbrev Source := FieldName → Operand

namespace Source

def ofRaw (values : NameMap String) : Source := fun name =>
  match values.get? name with
  | some raw => .ofRaw raw
  | none => .missing

def ofNumbers (values : NameMap Decimal) : Source := fun name =>
  match values.get? name with
  | some value => .number value
  | none => .missing

/-- The smaller of two entries by their texts, the first one where there is none yet. -/
def smaller (best : Option (String × String)) (entry : String × String) :
    Option (String × String) :=
  match best with
  | none => some entry
  | some best => if entry.1 < best.1 then some entry else some best

/-- The entry of a field among free-form texts: the one that is spelled exactly like it, else the
smallest of those that mean it. -/
def entryOf? (entries : List (String × String)) (name : FieldName) : Option (String × String) :=
  match entries.find? (·.1 == name.spelling) with
  | some entry => some entry
  | none => (entries.filter fun entry => name.isSpelledBy entry.1).foldl smaller none

/-- Raw values under free-form texts. -/
def ofTexts (entries : List (String × String)) : Source := fun name =>
  match entryOf? entries name with
  | some entry => .ofRaw entry.2
  | none => .missing

end Source

def Operation.apply (operation : Operation) (left right : Decimal) :
    Except FormulaError Decimal :=
  let result := match operation with
    | .add => left.add? right
    | .sub => left.sub? right
    | .mul => left.mul? right
    | .div => left.div? right
  if operation = .div ∧ right.isZero then .error .divisionByZero
  else match result with
    | some value => .ok value
    | none => .error .overflow

def Operand.value : Operand → Except FormulaError Decimal
  | .missing => .ok .zero
  | .number value => .ok value
  | .text raw => .error (.forbidden raw 0)

def Expr.eval (source : Source) : Expr → Except FormulaError Decimal
  | .number value => .ok value
  | .field name => (source name).value
  | .binary left operation right =>
    match left.eval source with
    | .error error => .error error
    | .ok a =>
      match right.eval source with
      | .error error => .error error
      | .ok b => operation.apply a b
  | .negate inner =>
    match inner.eval source with
    | .error error => .error error
    | .ok a => .ok a.neg

namespace Formula

def eval (formula : Formula) (source : Source) : Except FormulaError Decimal :=
  formula.expr.eval source

def evalText (source : Source) (text : String) : Except FormulaError Decimal :=
  match parse text with
  | .error error => .error error
  | .ok formula => formula.eval source

end Formula

end PeriodSheet
