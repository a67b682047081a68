import PeriodSheet.Power
import PeriodSheet.Text.Digits

/-!
# Whole numbers of a limited size

Reads a whole number that has to fit a number of bits, and says what is wrong with a text that is
not one.  Of several faults the leftmost counts.
-/

namespace PeriodSheet.Text

/-- What is wrong with a text that should be a whole number. -/
inductive WholeNumberError where
  | empty
  | notADigit
  | tooLarge
deriving DecidableEq

def WholeNumberError.message : WholeNumberError → String
  | .empty => "cannot parse integer from empty string"
  | .notADigit => "invalid digit found in string"
  | .tooLarge => "number too large to fit in target type"

/-- The number below a bound that digits continue. -/
def continueBelow (bound n : Nat) : List Char → Except WholeNumberError Nat
  | [] => .ok n
  | c :: rest =>
    if !c.isDigit then .error .notADigit
    else
      let next := 10 * n + digitValue c
      if next < bound then continueBelow bound next rest else .error .tooLarge

/-- The whole number of a text, which may start with a plus sign, in so many bits. -/
def wholeNumber (bits : Nat) : List Char → Except WholeNumberError Nat
  | [] => .error .empty
  | ['+'] => .error .notADigit
  | '+' :: rest => continueBelow (twoPow bits) 0 rest
  | cs => continueBelow (twoPow bits) 0 cs

end PeriodSheet.Text
