import PeriodSheet.Decimal.Text
import PeriodSheet.Text.Blank

/-!
# Numbers as people type them

Reads a number that may use a comma or a point as decimal mark, and the other one, or white space,
to group digits.  Where both marks occur the right-most is the decimal mark; one that occurs several
times without the other groups digits; one that occurs once is the decimal mark.
-/

namespace PeriodSheet.Decimal

open PeriodSheet.Text

/-- Whether a character may be a decimal mark. -/
def isMark (c : Char) : Bool :=
  c == ',' || c == '.'

/-- The mark that groups digits where the given one is the decimal mark. -/
def otherMark (mark : Char) : Char :=
  if mark = ',' then '.' else ','

/-- Writes the decimal mark as a point and drops the marks that group digits. -/
def canonicalMarks (cs : List Char) : List Char :=
  match cs.reverse.find? isMark with
  | none => cs
  | some mark =>
    -- `mark` is the right-most one, whichever it is
    if cs.contains (otherMark mark) then
      (cs.filter (· != otherMark mark)).map fun c => if c = mark then '.' else c
    else if 1 < cs.count mark then cs.filter (· != mark)
    else cs.map fun c => if c = mark then '.' else c

/-- Whether a character may stand in a number after its first character. -/
def isNumberChar (c : Char) : Bool :=
  c.isDigit || c == '.'

/-- Whether all characters are digits and points, a sign in front aside. -/
def isNumberText : List Char → Bool
  | [] => true
  | c :: rest => (isNumberChar c || c == '-' || c == '+') && rest.all isNumberChar

/-- Reads a number from characters without white space. -/
def ofEnteredChars? (cs : List Char) : Option Decimal :=
  if cs.isEmpty then none
  else
    let canonical := canonicalMarks cs
    if isNumberText canonical then ofChars? canonical else none

/-- Reads a number as typed; white space anywhere in it is ignored. -/
def ofEntered? (s : String) : Option Decimal :=
  ofEnteredChars? (s.toList.filter (!isBlank ·))

end PeriodSheet.Decimal
