import PeriodSheet.Decimal.Rounding

/-!
# Arithmetic

The four operations on decimals.  Each is exact where the exact result is a decimal, and otherwise
the nearest decimal, half to even; none means that the result is too large for any decimal.
-/

namespace PeriodSheet.Decimal

/-- The decimal nearest to an integer divided by `10 ^ scale`. -/
def ofScaled? (n : Int) (scale : Nat) : Option Decimal :=
  nearest? (n < 0) n.natAbs (tenPow scale) (min scale maxScale) (Nat.min_le_right _ _)

def add? (a b : Decimal) : Option Decimal :=
  let scale := max a.scale b.scale
  ofScaled? (a.signedAt scale + b.signedAt scale) scale

def sub? (a b : Decimal) : Option Decimal :=
  a.add? b.neg

def mul? (a b : Decimal) : Option Decimal :=
  ofScaled? (a.signed * b.signed) (a.scale + b.scale)

/-- The quotient of two numbers; the divisor must not be zero. -/
def div? (a b : Decimal) : Option Decimal :=
  nearest? (a.negative != b.negative) (a.coefficient * tenPow b.scale)
    (b.coefficient * tenPow a.scale) maxScale (Nat.le_refl _)

/-- The sum of two numbers, held at the largest magnitude where it would be too large. -/
def saturatingAdd (a b : Decimal) : Decimal :=
  (a.add? b).getD (extreme (a.negative && b.negative))

end PeriodSheet.Decimal
