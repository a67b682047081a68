import PeriodSheet.Decimal.Text
import PeriodSheet.Formula.Expr

/-!
# Outlines of expressions

An unambiguous text of an expression: every operation stands in parentheses before its operands, so
that the text shows how a formula was read.
-/

namespace PeriodSheet

/-- The text of an expression with each operation in front of its operands. -/
def Expr.outline : Expr → String
  | .number value => value.toText
  | .field name => name.reference
  | .binary left operation right =>
    "(" ++ operation.sign.toString ++ " " ++ left.outline ++ " " ++ right.outline ++ ")"
  | .negate inner => "(neg " ++ inner.outline ++ ")"

end PeriodSheet
