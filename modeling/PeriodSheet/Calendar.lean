import PeriodSheet.Text.Blank
import PeriodSheet.Text.Digits

/-!
# Calendar dates

Days of the Gregorian calendar, extended to all years from -262143 to 262142, and their two written
forms: year first with dashes, and day first with slashes.
-/

namespace PeriodSheet

open Text

/-- The first year that has dates. -/
def minYear : Int := -262143

/-- The last year that has dates. -/
def maxYear : Int := 262142

def isLeapYear (year : Int) : Bool :=
  year % 4 == 0 && (year % 100 != 0 || year % 400 == 0)

def daysInMonth (year : Int) (month : Nat) : Nat :=
  if month = 2 then (if isLeapYear year then 29 else 28)
  else if month = 4 ∨ month = 6 ∨ month = 9 ∨ month = 11 then 30
  else 31

/-- Whether a year, a month and a day name a date. -/
def IsDate (year : Int) (month day : Nat) : Prop :=
  (minYear ≤ year ∧ year ≤ maxYear) ∧ (1 ≤ month ∧ month ≤ 12) ∧
    (1 ≤ day ∧ day ≤ daysInMonth year month)

instance (year : Int) (month day : Nat) : Decidable (IsDate year month day) :=
  inferInstanceAs (Decidable (_ ∧ _ ∧ _))

structure Date where
  year : Int
  month : Nat
  day : Nat
  isDate : IsDate year month day
deriving DecidableEq

namespace Date

def of? (year : Int) (month day : Nat) : Option Date :=
  if h : IsDate year month day then some ⟨year, month, day, h⟩ else none

/-- A number that orders dates as the calendar does. -/
def ordinal (d : Date) : Int :=
  -- no month has 32 days
  (d.year * 12 + d.month) * 32 + d.day

def le (a b : Date) : Bool :=
  a.ordinal ≤ b.ordinal

def lt (a b : Date) : Bool :=
  a.ordinal < b.ordinal

/-! ### Stepping -/

/-- The date so many months later, on the last day of the month where that has no such day. -/
def addMonths? (d : Date) (months : Nat) : Option Date :=
  let total := d.month - 1 + months
  let year := d.year + (total / 12 : Nat)
  let month := total % 12 + 1
  of? year month (min d.day (daysInMonth year month))

def dayBefore? (d : Date) : Option Date :=
  if 1 < d.day then of? d.year d.month (d.day - 1)
  else if 1 < d.month then of? d.year (d.month - 1) (daysInMonth d.year (d.month - 1))
  else of? (d.year - 1) 12 31

/-! ### Writing -/

/-- A year: four digits at least, and a sign where it is negative or has more. -/
def yearChars (year : Int) : List Char :=
  if 0 ≤ year ∧ year ≤ 9999 then paddedDigits 4 year.natAbs
  else (if year < 0 then '-' else '+') :: paddedDigits 4 year.natAbs

/-- The characters of a date, year first. -/
def toChars (d : Date) : List Char :=
  yearChars d.year ++ '-' :: paddedDigits 2 d.month ++ '-' :: paddedDigits 2 d.day

def toText (d : Date) : String :=
  String.ofList d.toChars

/-! ### Reading -/

def skipBlank (cs : List Char) : List Char :=
  cs.dropWhile isBlank

/-- Reads a number of at most `width` digits, after white space. -/
def readNumber (width : Nat) (cs : List Char) : Option (Nat × List Char) :=
  let cs := skipBlank cs
  let ds := (cs.take width).takeWhile Char.isDigit
  if ds.isEmpty then none else some (ofDigits ds, cs.drop ds.length)

def readDigits (cs : List Char) : Option (Nat × List Char) :=
  let ds := cs.takeWhile Char.isDigit
  if ds.isEmpty then none else some (ofDigits ds, cs.drop ds.length)

/-- Reads a year, after white space: a sign and digits, or at most four digits. -/
def readYear (cs : List Char) : Option (Int × List Char) :=
  match skipBlank cs with
  | '-' :: rest => (readDigits rest).map fun (n, rest) => (-(n : Int), rest)
  | '+' :: rest => (readDigits rest).map fun (n, rest) => ((n : Int), rest)
  -- without a sign a fifth digit is left over, and is refused where a mark has to follow
  | cs => (readNumber 4 cs).map fun (n, rest) => ((n : Int), rest)

def readChar (c : Char) : List Char → Option (List Char)
  | d :: rest => if d = c then some rest else none
  | [] => none

/-- Reads a date, year first; `gap` drops what may stand before a dash and after the day. -/
def readYearFirst (gap : List Char → List Char) (cs : List Char) : Option Date := do
  let (year, cs) ← readYear cs
  -- white space before a number is skipped whatever `gap` is
  let (month, cs) ← readNumber 2 (← readChar '-' (gap cs))
  let (day, cs) ← readNumber 2 (← readChar '-' (gap cs))
  if (gap cs).isEmpty then of? year month day else none

/-- Reads a date, day first. -/
def readDayFirst (cs : List Char) : Option Date := do
  let (day, cs) ← readNumber 2 cs
  let (month, cs) ← readNumber 2 (← readChar '/' cs)
  let (year, cs) ← readYear (← readChar '/' cs)
  if cs.isEmpty then of? year month day else none

/-- Reads a date as users enter it, year first or day first. -/
def ofEntered? (text : String) : Option Date :=
  readYearFirst id text.toList <|> readDayFirst text.toList

/-- Reads a date as stored data writes it; white space may stand around the dashes. -/
def ofStored? (text : String) : Option Date :=
  readYearFirst skipBlank text.toList

end Date

end PeriodSheet
