import PeriodSheet.Power

/-!
# Decimal numbers

A decimal is a sign, a coefficient below `2 ^ 96` and a scale of at most 28 fraction digits; it
stands for the coefficient divided by `10 ^ scale`.  Numbers that differ in trailing zeros only are
distinct as texts and equal in value: `compare` and `isZero` go by value.
-/

namespace PeriodSheet

/-- The bound that every coefficient stays below. -/
abbrev Decimal.limit : Nat := twoPow 96

/-- The largest number of fraction digits. -/
abbrev Decimal.maxScale : Nat := 28

/-- A signed decimal number with a bounded coefficient and a bounded number of fraction digits. -/
structure Decimal where
  negative : Bool
  coefficient : Nat
  scale : Nat
  coefficient_lt : coefficient < Decimal.limit
  scale_le : scale ≤ Decimal.maxScale
deriving DecidableEq

namespace Decimal

def zero : Decimal := ⟨false, 0, 0, by decide, by decide⟩

def one : Decimal := ⟨false, 1, 0, by decide, by decide⟩

/-- The largest number in absolute value, of the given sign. -/
def extreme (negative : Bool) : Decimal := ⟨negative, limit - 1, 0, by decide, by decide⟩

instance : Inhabited Decimal := ⟨zero⟩

/-- The number of a sign, a coefficient and a scale, where they are within bounds.  A zero read
this way has no sign. -/
def ofParts? (negative : Bool) (coefficient scale : Nat) : Option Decimal :=
  if h : coefficient < limit ∧ scale ≤ maxScale then
    some ⟨negative && coefficient != 0, coefficient, scale, h.1, h.2⟩
  else
    none

def isZero (d : Decimal) : Bool :=
  d.coefficient == 0

def signed (d : Decimal) : Int :=
  if d.negative then -(d.coefficient : Int) else d.coefficient

/-- The signed coefficient at a scale that is not below the number's own. -/
def signedAt (d : Decimal) (scale : Nat) : Int :=
  d.signed * tenPow (scale - d.scale)

def compare (a b : Decimal) : Ordering :=
  let scale := max a.scale b.scale
  Ord.compare (a.signedAt scale) (b.signedAt scale)

def isPositive (d : Decimal) : Bool :=
  !d.isZero && !d.negative

def isNegative (d : Decimal) : Bool :=
  !d.isZero && d.negative

/-- The number with the opposite sign, also of zero. -/
def neg (d : Decimal) : Decimal :=
  { d with negative := !d.negative }

/-! ### Trailing zeros -/

/-- A coefficient and a scale with the trailing fraction zeros removed. -/
def dropZeros : Nat → Nat → Nat × Nat
  | coefficient, 0 => (coefficient, 0)
  | coefficient, scale + 1 =>
    if coefficient % 10 = 0 then dropZeros (coefficient / 10) scale else (coefficient, scale + 1)

theorem dropZeros_fst_le (c s : Nat) : (dropZeros c s).1 ≤ c := by
  fun_induction dropZeros c s with
  | case1 => exact Nat.le_refl _
  | case2 c s _ ih => exact Nat.le_trans ih (Nat.div_le_self c 10)
  | case3 => exact Nat.le_refl _

theorem dropZeros_snd_le (c s : Nat) : (dropZeros c s).2 ≤ s := by
  fun_induction dropZeros c s with
  | case1 => exact Nat.le_refl _
  | case2 c s _ ih => exact Nat.le_succ_of_le ih
  | case3 => exact Nat.le_refl _

/-- The number of the same value with the fewest fraction digits; zero loses its sign. -/
def normalize (d : Decimal) : Decimal :=
  if d.isZero then zero
  else
    { negative := d.negative
      coefficient := (dropZeros d.coefficient d.scale).1
      scale := (dropZeros d.coefficient d.scale).2
      coefficient_lt := Nat.lt_of_le_of_lt (dropZeros_fst_le _ _) d.coefficient_lt
      scale_le := Nat.le_trans (dropZeros_snd_le _ _) d.scale_le }

end Decimal

end PeriodSheet
