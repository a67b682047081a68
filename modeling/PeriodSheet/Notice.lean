import PeriodSheet.Dependency.Order
import PeriodSheet.Formula.Error

/-!
# Notices

What a computation reports about its course, beside its result: what it computes, which cells
failed, and why a carry rule did not write.
-/

namespace PeriodSheet

open Text

inductive NoticeLevel where
  | debug
  | warning
deriving DecidableEq

def NoticeLevel.name : NoticeLevel → String
  | .debug => "DEBUG"
  | .warning => "WARN"

/-- Something that a computation reports. -/
inductive Notice where
  /-- The formulas of an activity refer to one another in a circle. -/
  | circular (activity : String) (error : CycleError)
  /-- The record belongs to another activity. -/
  | foreignRecord (recordActivity activity : Int)
  /-- A period is about to be computed. -/
  | computing (client activity : Int) (period : Nat)
  /-- The formula of a field has no value. -/
  | failed (period : Nat) (field : FieldName) (error : FormulaError)
  /-- There is no period to carry into. -/
  | lastPeriod (period : Nat)
  /-- The origin of a carry rule has no value because its formula failed. -/
  | originFailed (rule : Int) (period : Nat) (origin : FieldName) (error : FormulaError)
  /-- The raw value of the origin of a carry rule is not a number. -/
  | originNotNumeric (rule : Int) (period : Nat) (origin : FieldName) (raw : String)
  /-- The destination of a carry rule holds a value that a user typed. -/
  | manualKept (rule : Int) (destination : FieldName) (period : Nat)
deriving DecidableEq

namespace Notice

def level : Notice → NoticeLevel
  | .circular .. => .warning
  | .foreignRecord .. => .warning
  | .computing .. => .debug
  | .failed .. => .debug
  | .lastPeriod _ => .debug
  | .originFailed .. => .warning
  | .originNotNumeric .. => .warning
  | .manualKept .. => .debug

def message : Notice → String
  | .circular activity error => "Activity '" ++ activity ++ "': " ++ error.message
  | .foreignRecord recordActivity activity =>
    "Computing record of activity " ++ ofInt recordActivity ++ " against schema of activity " ++
      ofInt activity
  | .computing client activity period =>
    "Computing client " ++ ofInt client ++ " activity " ++ ofInt activity ++ " period " ++
      ofNat period
  | .failed period field error =>
    "Period " ++ ofNat period ++ ": '" ++ field.spelling ++ "' failed: " ++ error.message
  | .lastPeriod period => "Period " ++ ofNat period ++ " is the last one, nothing to carry into"
  | .originFailed rule period origin error =>
    "Skipping carry rule " ++ ofInt rule ++ " from period " ++ ofNat period ++ ": '" ++
      origin.spelling ++ "' has an error: " ++ error.message
  | .originNotNumeric rule period origin raw =>
    "Carry rule " ++ ofInt rule ++ " from period " ++ ofNat period ++ ": '" ++ origin.spelling ++
      "' is not numeric ('" ++ raw ++ "')"
  | .manualKept rule destination period =>
    "Carry rule " ++ ofInt rule ++ " keeps manual value of '" ++ destination.spelling ++
      "' in period " ++ ofNat period

end Notice

end PeriodSheet
