/-!
# Ranges of periods

Which periods to compute: from a first one to a last one, both included.  A range is given without
regard to how many periods there are and is cut to those that exist.
-/

namespace PeriodSheet

/-- A range of periods, which are counted from one. -/
structure PeriodRange where
  first : Nat := 1
  /-- The last period; the range runs to the end where there is none. -/
  last : Option Nat := none
deriving DecidableEq

namespace PeriodRange

def all : PeriodRange := {}

/-- The first of the range's periods, where there are any. -/
def start (range : PeriodRange) : Nat :=
  max range.first 1

/-- The last of the range's periods among so many, where there are any. -/
def stop (range : PeriodRange) (count : Nat) : Nat :=
  min (range.last.getD count) count

/-- Whether none of so many periods is in the range. -/
def isEmpty (range : PeriodRange) (count : Nat) : Bool :=
  range.stop count < range.start

/-- The periods of the range among so many, ascending. -/
def periods (range : PeriodRange) (count : Nat) : List Nat :=
  List.range' range.start (range.stop count + 1 - range.start)

theorem mem_periods {range : PeriodRange} {count period : Nat} :
    period ∈ range.periods count ↔
      1 ≤ period ∧ period ≤ count ∧ range.first ≤ period ∧ ∀ last ∈ range.last, period ≤ last := by
  obtain ⟨first, last⟩ := range
  cases last <;> simp [periods, start, stop, List.mem_range'_1] <;> omega

end PeriodRange

end PeriodSheet
