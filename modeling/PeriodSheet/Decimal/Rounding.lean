import PeriodSheet.Decimal.Basic

/-!
# Rounding

Quotients rounded to the nearest integer, and the two uses that decimals make of them: a result
that does not fit its coefficient is rounded to the most fraction digits that do, and a number is
rounded on request to a given number of fraction digits.
-/

namespace PeriodSheet

/-- Which way a quotient halfway between two integers goes. -/
inductive Tie where
  | toEven
  | awayFromZero
deriving DecidableEq

/-- The integer nearest to `num / den`. -/
def roundDiv (tie : Tie) (num den : Nat) : Nat :=
  let quotient := num / den
  let remainder := num % den
  if 2 * remainder < den then quotient
  else if den < 2 * remainder then quotient + 1
  else match tie with
    | .toEven => if quotient % 2 = 0 then quotient else quotient + 1
    | .awayFromZero => quotient + 1

theorem roundDiv_le_succ (tie : Tie) (num den : Nat) : roundDiv tie num den ≤ num / den + 1 := by
  unfold roundDiv
  cases tie <;> grind

theorem roundDiv_zero (tie : Tie) {den : Nat} (h : 0 < den) : roundDiv tie 0 den = 0 := by
  simp [roundDiv, h]

theorem roundDiv_le (tie : Tie) {num den : Nat} (h : 2 ≤ den) : roundDiv tie num den ≤ num := by
  rcases Nat.eq_zero_or_pos num with rfl | hpos
  · exact Nat.le_of_eq (roundDiv_zero tie (by omega))
  · have hle := roundDiv_le_succ tie num den
    have hdiv : num / den ≤ num / 2 := Nat.div_le_div_left h (by decide)
    omega

namespace Decimal

/-- The number nearest to `num / den`, half to even, with the most fraction digits, at most
`scale`, at which the coefficient fits; none where even the integer does not fit. -/
def nearest? (negative : Bool) (num den : Nat) : (scale : Nat) → scale ≤ maxScale → Option Decimal
  | 0, h =>
    let c := roundDiv .toEven num den
    if hc : c < limit then some ⟨negative, c, 0, hc, h⟩ else none
  | scale + 1, h =>
    let c := roundDiv .toEven (num * tenPow (scale + 1)) den
    if hc : c < limit then some ⟨negative, c, scale + 1, hc, h⟩
    else nearest? negative num den scale (Nat.le_of_succ_le h)

/-- Rounds to at most `digits` fraction digits, half away from zero. -/
def roundTo (digits : Nat) (d : Decimal) : Decimal :=
  if h : d.scale ≤ digits then d
  else
    { negative := d.negative
      coefficient := roundDiv .awayFromZero d.coefficient (tenPow (d.scale - digits))
      scale := digits
      coefficient_lt := by
        refine Nat.lt_of_le_of_lt (roundDiv_le _ ?_) d.coefficient_lt
        have hpow : tenPow 1 ≤ tenPow (d.scale - digits) :=
          Nat.pow_le_pow_right (by decide) (by omega)
        exact Nat.le_trans (by decide) hpow
      scale_le := by have := d.scale_le; omega }

end Decimal

end PeriodSheet
