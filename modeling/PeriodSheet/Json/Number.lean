import PeriodSheet.Json.Basic
import PeriodSheet.Power
import PeriodSheet.Text.Digits

/-!
# Numbers of JSON texts

What a written number is.  A number without fraction and exponent that fits 64 bits is an integer.
Any other number is approximate: its digits are gathered into a significand as long as that fits 64
bits, the others count only by their place, and the significand is then scaled by a power of ten.
Both are taken as binary numbers of 53 digits, and a product beyond the largest such number is out
of range.
-/

namespace PeriodSheet.Json

open PeriodSheet.Text

/-! ### The range of binary numbers -/

/-- The least whole number that is rounded to infinity: half a unit above the largest binary number
of 53 digits whose exponent has eleven. -/
def binaryBound : Nat :=
  twoPow 1024 - twoPow 970

/-- A number without its last binary digits, of which there are `dropped`, rounded to the nearest
one that can do without them; of two, to the one whose last digit kept is even. -/
def dropBinary (dropped n : Nat) : Nat :=
  let unit := twoPow dropped
  let kept := n / unit
  let rest := 2 * (n % unit)
  (if unit < rest ∨ (rest = unit ∧ kept % 2 = 1) then kept + 1 else kept) * unit

/-- The binary number of 53 digits that is nearest to a whole number. -/
def nearestBinary (n : Nat) : Nat :=
  dropBinary (n.log2 + 1 - 53) n

/-- Whether a significand times a power of ten is out of range.  Only a power that enlarges can
lead there, and beyond ten to the 308th each does. -/
def isOutOfRange (significand : Nat) (exponent : Int) : Bool :=
  significand != 0 && 0 ≤ exponent &&
    (308 < exponent ||
      binaryBound ≤ nearestBinary significand * nearestBinary (tenPow exponent.toNat))

/-! ### Significand and exponent -/

/-- A significand, and the power of ten that it counts. -/
structure Scaled where
  significand : Nat
  exponent : Int

namespace Scaled

/-- Takes the digits before the point: from the first one that no longer fits on, each digit counts
by its place only. -/
def takeWhole (scaled : Scaled) : List Char → Scaled
  | [] => scaled
  | c :: rest =>
    let next := 10 * scaled.significand + digitValue c
    if next < twoPow 64 then takeWhole ⟨next, scaled.exponent⟩ rest
    else ⟨scaled.significand, scaled.exponent + (rest.length + 1 : Nat)⟩

/-- Takes the digits after the point, up to the first one that no longer fits. -/
def takeFraction (scaled : Scaled) : List Char → Scaled
  | [] => scaled
  | c :: rest =>
    let next := 10 * scaled.significand + digitValue c
    if next < twoPow 64 then takeFraction ⟨next, scaled.exponent - 1⟩ rest else scaled

end Scaled

/-! ### Written numbers -/

structure Numeral where
  negative : Bool
  whole : List Char
  /-- The digits after the point, with the point before them. -/
  fraction : List Char
  /-- The digits of the exponent, with its letter and its sign before them. -/
  exponent : List Char

namespace Numeral

def text (numeral : Numeral) : String :=
  String.ofList <|
    (if numeral.negative then ['-'] else []) ++ numeral.whole ++ numeral.fraction ++
      numeral.exponent

def writtenExponent (numeral : Numeral) : Int :=
  match numeral.exponent with
  | _ :: '-' :: ds => -(ofDigits ds : Int)
  | _ :: '+' :: ds => ofDigits ds
  | _ :: ds => ofDigits ds
  | [] => 0

/-- The significand and the exponent of an approximate number. -/
def scaled (numeral : Numeral) : Scaled :=
  let digits := (Scaled.takeWhole ⟨0, 0⟩ numeral.whole).takeFraction (numeral.fraction.drop 1)
  ⟨digits.significand, digits.exponent + numeral.writtenExponent⟩

def approximate (numeral : Numeral) : Json :=
  let scaled := numeral.scaled
  if isOutOfRange scaled.significand scaled.exponent then .unreadable true
  else .real numeral.text

/-- The value of a numeral.  Minus zero and numbers beyond 64 bits are not integers. -/
def value (numeral : Numeral) : Json :=
  let n := ofDigits numeral.whole
  if !numeral.fraction.isEmpty || !numeral.exponent.isEmpty then numeral.approximate
  else if numeral.negative then
    (if n = 0 ∨ twoPow 63 < n then numeral.approximate else .integer (-(n : Int)))
  else if n < twoPow 64 then .integer n
  else numeral.approximate

end Numeral

end PeriodSheet.Json
