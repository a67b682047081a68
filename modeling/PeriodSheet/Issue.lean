import PeriodSheet.Json.Basic
import PeriodSheet.Value

/-!
# Schema issues

What is wrong with the definition of an activity.  An error keeps the definition from being saved; a
warning is only reported.
-/

namespace PeriodSheet

open Text

inductive Severity where
  | error
  | warning
deriving DecidableEq

def Severity.label : Severity → String
  | .error => "error"
  | .warning => "warning"

/-- The role of a field in a carry rule. -/
inductive CarryRole where
  | origin
  | destination
deriving DecidableEq

def CarryRole.label : CarryRole → String
  | .origin => "origin"
  | .destination => "destination"

inductive IssueCause where
  | duplicateField
  | missingOptions
  | invalidDefault (error : ValueError)
  | invalidFormula (rejection : FormulaRejection)
  | unknownRuleField (name : String)
  | unnamedRuleField
  | calculatedDestination (name : String)
  | uncarriable (role : CarryRole) (name : String) (dataType : DataType)
  | missingDestinationPeriod
  | comparisonNotNumeric (operator value : String)
  | fieldNotOrdered (operator : String) (dataType : DataType) (name : String)
  | duplicateIndicator (count : Nat) (indicator : String)
  | noPeriods
  | labelCount (labels periods : Nat)
  | dateCount (starts ends periods : Nat)
  | startsAfterEnd (start finish : Date)
  | startsBeforePrevious (start previous : Date)

namespace IssueCause

def kind : IssueCause → String
  | .duplicateField => "duplicate_field"
  | .missingOptions => "missing_options"
  | .invalidDefault _ => "invalid_default"
  | .invalidFormula _ => "invalid_formula"
  | .unknownRuleField _ => "unknown_rule_field"
  | .unnamedRuleField => "unknown_rule_field"
  | .calculatedDestination _ => "invalid_carry_rule"
  | .uncarriable .. => "invalid_carry_rule"
  | .missingDestinationPeriod => "missing_destination_period"
  | .comparisonNotNumeric .. => "invalid_rule_comparison"
  | .fieldNotOrdered .. => "invalid_rule_comparison"
  | .duplicateIndicator .. => "duplicate_indicator"
  | .noPeriods => "period_layout"
  | .labelCount .. => "period_layout"
  | .dateCount .. => "period_layout"
  | .startsAfterEnd .. => "period_layout"
  | .startsBeforePrevious .. => "period_layout"

def severity : IssueCause → Severity
  | .missingDestinationPeriod => .warning
  | _ => .error

def message : IssueCause → String
  | .duplicateField => "field name is used more than once (names are case-insensitive)"
  | .missingOptions => "dropdown field has no options"
  | .invalidDefault error => "default value: " ++ error.message
  | .invalidFormula rejection => rejection.message
  | .unknownRuleField name => "field '" ++ name ++ "' does not exist"
  | .unnamedRuleField => "field-scoped rule does not name a field"
  | .calculatedDestination name =>
    "destination '" ++ name ++ "' is calculated, carried values would never be read"
  | .uncarriable role name dataType =>
    role.label ++ " '" ++ name ++ "' is a " ++ dataType.label ++
      " field, only numeric fields can be carried"
  | .missingDestinationPeriod =>
    "the layout has a single period, this rule can never write anything"
  | .comparisonNotNumeric operator value =>
    "operator '" ++ operator ++ "' needs a numeric comparison value, got '" ++ value ++ "'"
  | .fieldNotOrdered operator dataType name =>
    "operator '" ++ operator ++ "' cannot compare " ++ dataType.label ++ " field '" ++ name ++ "'"
  | .duplicateIndicator count indicator =>
    ofNat count ++ " fields are flagged as the " ++ indicator ++ " indicator"
  | .noPeriods => "period count must be at least 1"
  | .labelCount labels periods => ofNat labels ++ " labels for " ++ ofNat periods ++ " periods"
  | .dateCount starts ends periods =>
    ofNat starts ++ " start dates and " ++ ofNat ends ++ " end dates for " ++ ofNat periods ++
      " periods"
  | .startsAfterEnd start finish =>
    "starts on " ++ start.toText ++ " after it ends on " ++ finish.toText
  | .startsBeforePrevious start previous =>
    "starts on " ++ start.toText ++ " before the previous period ends on " ++ previous.toText

end IssueCause

/-- An issue of a schema: what it is about, and what is wrong. -/
structure Issue where
  subject : String
  cause : IssueCause

namespace Issue

def severity (issue : Issue) : Severity :=
  issue.cause.severity

def isError (issue : Issue) : Bool :=
  issue.severity == .error

def message (issue : Issue) : String :=
  issue.severity.label ++ " [" ++ issue.subject ++ "]: " ++ issue.cause.message

def toJson (issue : Issue) : Json :=
  .record [("severity", .text issue.severity.label), ("kind", .text issue.cause.kind),
    ("subject", .text issue.subject), ("message", .text issue.cause.message)]

def savable (issues : List Issue) : Bool :=
  !issues.any isError

end Issue

end PeriodSheet
