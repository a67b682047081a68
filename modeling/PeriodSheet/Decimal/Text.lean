import PeriodSheet.Decimal.Basic
import PeriodSheet.Text.Digits

/-!
# Decimal text

The plain text of a decimal: an optional sign, digits, and a point before the fraction digits.
Writing shows exactly `scale` fraction digits.  Reading takes the scale from the number of fraction
digits; once the coefficient is full, or 28 fraction digits are read, the next digit rounds and the
rest is dropped, which may hold digits and underscores only.
-/

namespace PeriodSheet.Decimal

open PeriodSheet.Text

/-! ### Writing -/

/-- The digits before the point, at least one. -/
def wholeDigits (d : Decimal) : List Char :=
  let ds := paddedDigits (d.scale + 1) d.coefficient
  ds.take (ds.length - d.scale)

/-- The digits after the point, exactly `scale` of them. -/
def fractionDigits (d : Decimal) : List Char :=
  let ds := paddedDigits (d.scale + 1) d.coefficient
  ds.drop (ds.length - d.scale)

/-- The sign, the whole digits and, where there are any, the fraction digits after a point. -/
def textOf (negative : Bool) (whole fraction : List Char) : List Char :=
  (if negative then ['-'] else []) ++ whole ++ (if fraction.isEmpty then [] else '.' :: fraction)

/-- The characters of a number with all its fraction digits. -/
def toChars (d : Decimal) : List Char :=
  textOf d.negative d.wholeDigits d.fractionDigits

def toText (d : Decimal) : String :=
  String.ofList d.toChars

/-- The characters of a number with exactly `digits` fraction digits: further ones are cut off and
missing ones are zeros. -/
def toFixedChars (digits : Nat) (d : Decimal) : List Char :=
  textOf d.negative d.wholeDigits ((d.fractionDigits.take digits).rightpad digits '0')

/-! ### Reading -/

/-- Rounds a full coefficient by the first digit that no longer fits; only digits and underscores
may follow it. -/
def roundBy? (coefficient scale digit : Nat) (rest : List Char) : Option (Nat × Nat) :=
  if !rest.all (fun c => c.isDigit || c == '_') then none
  else if digit < 5 then some (coefficient, scale)
  else if coefficient + 1 < limit then some (coefficient + 1, scale)
  else if scale = 0 then none
  -- no room to round up: the last fraction digit is given up instead
  else some ((coefficient + 5) / 10, scale - 1)

/-- Whether the digits before the last one of a coefficient are too many for 64 bits to take any
digit more. -/
def isWide (coefficient : Nat) : Bool :=
  twoPow 64 / 10 - 255 ≤ coefficient / 10

/-- Rounds a coefficient of 28 fraction digits by what follows.  An underscore there counts as a
zero, unless the coefficient is wide: then the digit after it rounds. -/
def roundRest? (coefficient : Nat) (cs : List Char) : Option (Nat × Nat) :=
  match if isWide coefficient then cs.dropWhile (· == '_') else cs with
  | [] => some (coefficient, maxScale)
  | c :: rest =>
    if c.isDigit then roundBy? coefficient maxScale (digitValue c) rest
    else if c == '_' then roundBy? coefficient maxScale 0 rest
    else none

/-- Reads the coefficient and the scale.  `point` says whether the point was passed, `started`
whether a digit was; after a digit an underscore may separate digits. -/
def readParts (point started : Bool) (coefficient scale : Nat) : List Char → Option (Nat × Nat)
  | [] => if started then some (coefficient, scale) else none
  | c :: rest =>
    -- after 28 fraction digits even a zero is not taken any more
    if point && scale == maxScale then roundRest? coefficient (c :: rest)
    else if c.isDigit then
      if 10 * coefficient + digitValue c < limit then
        readParts point true (10 * coefficient + digitValue c) (if point then scale + 1 else scale)
          rest
      else if point then roundBy? coefficient scale (digitValue c) rest
      else none
    else if c == '.' && !point then readParts true started coefficient scale rest
    else if c == '_' && started then readParts point started coefficient scale rest
    else none

def readUnsigned? (negative : Bool) (cs : List Char) : Option Decimal :=
  (readParts false false 0 0 cs).bind fun (coefficient, scale) =>
    ofParts? negative coefficient scale

def ofChars? : List Char → Option Decimal
  | '-' :: rest => readUnsigned? true rest
  | '+' :: rest => readUnsigned? false rest
  | cs => readUnsigned? false cs

def ofText? (s : String) : Option Decimal :=
  ofChars? s.toList

/-! ### Exponents -/

/-- The number with its point moved some places to the left.  Digits that are then beyond the last
fraction digit are rounded, a half away from zero; a number that is rounded to zero keeps its
sign. -/
def shiftLeft? (d : Decimal) (places : Nat) : Option Decimal :=
  let excess := d.scale + places - maxScale
  if maxScale < places then none
  else if excess = 0 then ofParts? d.negative d.coefficient (d.scale + places)
  else
    some { d with
      coefficient := (d.coefficient / tenPow (excess - 1) + 5) / 10
      scale := maxScale
      coefficient_lt := by
        have hle := Nat.div_le_self d.coefficient (tenPow (excess - 1))
        have hlt := d.coefficient_lt
        omega
      scale_le := Nat.le_refl _ }

/-- The number with its point moved some places to the right; past the last digit it keeps no
trailing fraction zeros. -/
def shiftRight? (d : Decimal) (places : Nat) : Option Decimal :=
  if places ≤ d.scale then ofParts? d.negative d.coefficient (d.scale - places)
  else if places ≤ maxScale then
    ofParts? d.negative (d.coefficient * tenPow (places - d.scale)) 0
  else
    none

def shift? (d : Decimal) (exponent : Int) : Option Decimal :=
  if exponent < 0 then d.shiftLeft? exponent.natAbs else d.shiftRight? exponent.toNat

/-- The exponent after the letter `e`: an optional minus, then digits that a plus may precede. -/
def exponentOf? : List Char → Option Int
  | '-' :: '+' :: rest => (natOfDigits? rest).map fun n => -(n : Int)
  | '-' :: rest => (natOfDigits? rest).map fun n => -(n : Int)
  | '+' :: rest => (natOfDigits? rest).map Int.ofNat
  | cs => (natOfDigits? cs).map Int.ofNat

/-- Reads a number with an exponent, such as `1.5e3`. -/
def ofScientific? (cs : List Char) : Option Decimal :=
  let isMark := fun c => c == 'e' || c == 'E'
  match cs.dropWhile (!isMark ·) with
  | [] => none
  | _ :: exponent => do
    let base ← ofChars? (cs.takeWhile (!isMark ·))
    base.shift? (← exponentOf? exponent)

/-- Reads a number as stored data writes it: plain text, or text with an exponent. -/
def ofStored? (s : String) : Option Decimal :=
  ofText? s <|> ofScientific? s.toList

end PeriodSheet.Decimal
