import PeriodSheet.Decimal.Basic
import PeriodSheet.FieldName

/-!
# Arithmetic expressions

What a formula means once it is read: numbers, references to fields, the four operations and
negation.
-/

namespace PeriodSheet

/-- The operation that joins two operands. -/
inductive Operation where
  | add
  | sub
  | mul
  | div
deriving DecidableEq

def Operation.sign : Operation → Char
  | .add => '+'
  | .sub => '-'
  | .mul => '*'
  | .div => '/'

/-- An arithmetic expression over fields. -/
inductive Expr where
  | number (value : Decimal)
  | field (name : FieldName)
  | binary (left : Expr) (operation : Operation) (right : Expr)
  | negate (inner : Expr)
deriving DecidableEq

namespace Expr

/-- The fields of an expression from left to right, with repetitions. -/
def fields : Expr → List FieldName
  | .number _ => []
  | .field name => [name]
  | .binary left _ right => left.fields ++ right.fields
  | .negate inner => inner.fields

/-- The number of nested levels of an expression; a single operand has one. -/
def height : Expr → Nat
  | .number _ => 1
  | .field _ => 1
  | .binary left _ right => max left.height right.height + 1
  | .negate inner => inner.height + 1

end Expr

/-- The names without those that repeat an earlier one. -/
def distinctNames : List FieldName → List FieldName
  | [] => []
  | name :: rest => name :: (distinctNames rest).filter (!·.same name)

/-- A formula: its text and what the text means. -/
structure Formula where
  source : String
  expr : Expr
deriving DecidableEq

namespace Formula

/-- The fields that a formula refers to, each once, in order of first appearance. -/
def references (formula : Formula) : List FieldName :=
  distinctNames formula.expr.fields

def mentions (formula : Formula) (name : FieldName) : Bool :=
  formula.references.any (·.same name)

end Formula

end PeriodSheet
