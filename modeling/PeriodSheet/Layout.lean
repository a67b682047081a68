import PeriodSheet.Calendar
import PeriodSheet.Issue
import PeriodSheet.Rule.Carry
import PeriodSheet.Rule.Colour

/-!
# Period layouts

A layout splits a fiscal year into numbered periods, the first of which is number one, with a label
and a range of dates each.  It also holds the fields and the rules that apply inside the periods.
-/

namespace PeriodSheet

open Text

/-- The layout of an activity that is split into periods. -/
structure Layout where
  name : String
  periodCount : Nat
  labels : List String
  startDates : List Date := []
  endDates : List Date := []
  interestRate : Option Decimal := none
  showTotals : Bool := false
  showInterest : Bool := false
  collapsed : Bool := false
  fields : List Field := []
  carryRules : List CarryRule := []
  colourRules : List ColourRule := []
deriving DecidableEq

namespace Layout

/-! ### Standard layouts -/

def monthNames : List String :=
  ["January", "February", "March", "April", "May", "June", "July", "August", "September",
    "October", "November", "December"]

/-- The letter that the labels of a standard layout start with. -/
def labelLetter (count : Nat) : String :=
  if count = 6 then "B" else if count = 4 then "Q" else if count = 3 then "T" else "H"

def standardLabels (count : Nat) : List String :=
  if count = 12 then monthNames
  else if count = 1 then ["Year"]
  else (List.range count).map fun i => labelLetter count ++ ofNat (i + 1)

/-- The range of the period with an index, where each one covers so many months: it ends on the day
before the next one starts. -/
def standardRange? (yearStart : Date) (months index : Nat) : Option (Date × Date) := do
  let start ← yearStart.addMonths? (index * months)
  let next ← start.addMonths? months
  return (start, ← next.dayBefore?)

/-- The layout that splits a year into periods of whole months.  The number of periods divides
twelve, and the day after the last one must be a date too. -/
def standard? (name : String) (count : Nat) (year : Int) : Option Layout := do
  if count = 0 ∨ 12 % count ≠ 0 then none
  else
    let yearStart ← Date.of? year 1 1
    let ranges ← (List.range count).mapM (standardRange? yearStart (12 / count))
    return { name, periodCount := count, labels := standardLabels count
             startDates := ranges.map (·.1), endDates := ranges.map (·.2) }

def unsupportedMessage (count : Nat) : String :=
  "cannot split a year into " ++ ofNat count ++ " periods (use 1, 2, 3, 4, 6 or 12)"

/-! ### Periods -/

def hasPeriod (layout : Layout) (period : Nat) : Bool :=
  1 ≤ period && period ≤ layout.periodCount

/-- The label of a period without one of its own. -/
def fallbackLabel (period : Nat) : String :=
  "Period " ++ ofNat period

def label (layout : Layout) (period : Nat) : String :=
  if period = 0 then fallbackLabel period
  else layout.labels[period - 1]?.getD (fallbackLabel period)

/-- The date ranges of the periods, in order. -/
def ranges (layout : Layout) : List (Date × Date) :=
  layout.startDates.zip layout.endDates

/-- The first period whose range holds a date. -/
def periodOf? (layout : Layout) (date : Date) : Option Nat :=
  (layout.ranges.findIdx? fun (start, finish) => start.le date && date.le finish).map (· + 1)

/-- The year that the first period starts in. -/
def fiscalYear? (layout : Layout) : Option Int :=
  layout.startDates.head?.map (·.year)

/-! ### Sameness -/

/-- The layout with its number in the form that only its value decides. -/
def canonical (layout : Layout) : Layout :=
  { layout with interestRate := layout.interestRate.map (·.normalize) }

/-! ### Checking -/

/-- The issues of the ranges from a period on, after one that ends on `previous`. -/
def checkRanges (period : Nat) (previous : Option Date) : List (Date × Date) → List Issue
  | [] => []
  | (start, finish) :: rest =>
    let subject := "period " ++ ofNat period
    (if finish.lt start then [⟨subject, .startsAfterEnd start finish⟩] else []) ++
      (match previous with
        | some last => if start.le last then [⟨subject, .startsBeforePrevious start last⟩] else []
        | none => []) ++
      checkRanges (period + 1) (some finish) rest

/-- The issues of the dates of a layout, which may have none. -/
def checkDates (layout : Layout) (subject : String) : List Issue :=
  let starts := layout.startDates.length
  let ends := layout.endDates.length
  if starts = 0 ∧ ends = 0 then []
  else if starts ≠ layout.periodCount ∨ ends ≠ layout.periodCount then
    [⟨subject, .dateCount starts ends layout.periodCount⟩]
  else checkRanges 1 none layout.ranges

def check (layout : Layout) : List Issue :=
  let subject := "period type '" ++ layout.name ++ "'"
  if layout.periodCount = 0 then [⟨subject, .noPeriods⟩]
  else
    (if layout.labels.length = layout.periodCount then []
      else [⟨subject, .labelCount layout.labels.length layout.periodCount⟩]) ++
    layout.checkDates subject

end Layout

end PeriodSheet
