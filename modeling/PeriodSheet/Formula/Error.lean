import PeriodSheet.Decimal.Text
import PeriodSheet.Formula.Expr
import PeriodSheet.Json.Basic

/-!
# Formula errors

Why a formula cannot be read or has no value, the wording of each reason, and the short marker that
a cell shows instead of a value.  Positions count the bytes of the UTF-8 text before the place.
-/

namespace PeriodSheet

open Text

/-- A lexical unit of a formula. -/
inductive Token where
  | number (value : Decimal)
  | field (name : FieldName)
  | operator (operation : Operation)
  | opening
  | closing
deriving DecidableEq

/-- How an error names the token that it found; none is the end of the formula. -/
def Token.describe : Option Token → String
  | none => "end of formula"
  | some (.number value) => "number " ++ value.toText
  | some (.field name) => "field " ++ name.reference
  | some (.operator operation) => "'" ++ operation.sign.toString ++ "'"
  | some .opening => "'('"
  | some .closing => "')'"

inductive FormError where
  | unclosedReference
  | badName (error : NameError)
  | badNumber (text : String)
  | empty
  | trailing (found : Option Token)
  | closingExpected (found : Option Token)
  | operandExpected (found : Option Token)
  | tooDeep
  | tooLong (length limit : Nat)
deriving DecidableEq

def FormError.message : FormError → String
  | .unclosedReference => "unclosed field reference, expected ']'"
  | .badName error => error.message
  | .badNumber text => "invalid number: " ++ text
  | .empty => "formula is empty"
  | .trailing found => "unexpected " ++ Token.describe found ++ " after expression"
  | .closingExpected found => "expected ')', found " ++ Token.describe found
  | .operandExpected found => "expected a number, field or '(', found " ++ Token.describe found
  | .tooDeep => "formula is nested too deeply"
  | .tooLong length limit =>
    "formula is " ++ ofNat length ++ " characters long, the limit is " ++ ofNat limit

/-- Why a formula has no value. -/
inductive FormulaError where
  /-- A character, or the value of a field, that arithmetic does not allow. -/
  | forbidden (token : String) (position : Nat)
  /-- The text is not of the form of a formula. -/
  | malformed (error : FormError) (position : Nat)
  | divisionByZero
  /-- A result is too large for a decimal. -/
  | overflow
  /-- The field takes part in a cycle of references; the cycle's fields. -/
  | cyclicDependency (cycle : List String)
  /-- A calculated field that the formula needs has no value. -/
  | dependencyFailed (field : String)
deriving DecidableEq

namespace FormulaError

def ofCycle (names : List FieldName) : FormulaError :=
  .cyclicDependency (names.map (·.spelling))

/-- The short marker that stands in place of a value. -/
def marker : FormulaError → String
  | .forbidden .. => "#UNSAFE"
  | .malformed .. => "#SYNTAX"
  | .divisionByZero => "#DIV/0"
  | .overflow => "#OVERFLOW"
  | .cyclicDependency _ => "#CYCLE"
  | .dependencyFailed _ => "#REF"

def message : FormulaError → String
  | .forbidden token position =>
    "unsafe expression at position " ++ ofNat position ++ ": '" ++ token ++ "'"
  | .malformed error position =>
    "syntax error at position " ++ ofNat position ++ ": " ++ error.message
  | .divisionByZero => "division by zero"
  | .overflow => "numeric overflow"
  | .cyclicDependency cycle => "cyclic dependency between " ++ ", ".intercalate cycle
  | .dependencyFailed field => "depends on '" ++ field ++ "', which could not be computed"

def kind : FormulaError → String
  | .forbidden .. => "unsafe_expression"
  | .malformed .. => "syntax"
  | .divisionByZero => "division_by_zero"
  | .overflow => "overflow"
  | .cyclicDependency _ => "cyclic_dependency"
  | .dependencyFailed _ => "dependency_failed"

def toJson (error : FormulaError) : Json :=
  .record (("kind", .text error.kind) :: match error with
    | .forbidden token position => [("token", .text token), ("position", .ofNat position)]
    | .malformed error position =>
      [("message", .text error.message), ("position", .ofNat position)]
    | .divisionByZero => []
    | .overflow => []
    | .cyclicDependency cycle => [("cycle", .ofTexts cycle)]
    | .dependencyFailed field => [("field", .text field)])

end FormulaError

end PeriodSheet
