import PeriodSheet.FieldName
import PeriodSheet.NumberFormat

/-!
# Carry rules

A carry rule moves the value of a field into the next period, into a field that the user could have
filled in as well.  The condition is judged on the number before it is rounded for writing; the
policy says whether a value that the user typed may be replaced.
-/

namespace PeriodSheet

open Text

/-- When a carry rule applies, judged on the origin's value. -/
inductive CarryCondition where
  | always
  | ifPositive
  | ifNegative
  | ifNonZero
deriving DecidableEq

namespace CarryCondition

def holds : CarryCondition → Decimal → Bool
  | .always, _ => true
  | .ifPositive, d => d.isPositive
  | .ifNegative, d => d.isNegative
  | .ifNonZero, d => !d.isZero

def label : CarryCondition → String
  | .always => "Always"
  | .ifPositive => "If positive"
  | .ifNegative => "If negative"
  | .ifNonZero => "If not zero"

def describe : CarryCondition → String
  | .always => "always"
  | .ifPositive => "> 0"
  | .ifNegative => "< 0"
  | .ifNonZero => "!= 0"

end CarryCondition

/-- A rule that moves a field's value into a field of the next period. -/
structure CarryRule where
  id : Int
  origin : FieldName
  destination : FieldName
  condition : CarryCondition := .always
  isActive : Bool := true
deriving DecidableEq

def CarryRule.describe (rule : CarryRule) : String :=
  "carry(" ++ rule.origin.spelling ++ " -> next." ++ rule.destination.spelling ++ ") when " ++
    rule.condition.describe

/-- What carrying may do to a destination that holds a value. -/
inductive CarryPolicy where
  /-- Only blank destinations, and those that an earlier carry filled, are written. -/
  | preserveManual
  /-- Every destination is written. -/
  | overwrite
deriving DecidableEq

namespace CarryPolicy

/-- Whether a destination with this raw text may be written. -/
def allows : CarryPolicy → (current : Option String) → (carried : Bool) → Bool
  | .overwrite, _, _ => true
  | .preserveManual, none, _ => true
  | .preserveManual, some raw, carried => carried || isBlankText raw

def label : CarryPolicy → String
  | .preserveManual => "Preserve manual edits"
  | .overwrite => "Overwrite"

def name : CarryPolicy → String
  | .preserveManual => "preserve_manual"
  | .overwrite => "overwrite"

/-- The word that a user's text stands for: in lower case, with underscores for dashes. -/
def wordOf (text : String) : String :=
  String.ofList ((lower (trim text)).toList.map fun c => if c = '-' then '_' else c)

/-- Reads a policy as users write it; the error side holds the word that is not one. -/
def parse (text : String) : Except String CarryPolicy :=
  let word := wordOf text
  if word = "preserve_manual" ∨ word = "preserve" then .ok .preserveManual
  else if word = "overwrite" then .ok .overwrite
  else .error word

def unknownMessage (word : String) : String :=
  "unknown carry policy '" ++ word ++ "' (expected preserve_manual or overwrite)"

end CarryPolicy

/-- What a rule writes into its destination for the origin's value; nothing where the rule does not
apply or the destination holds that text already. -/
def CarryRule.apply (rule : CarryRule) (format : NumberFormat) (value : Decimal)
    (current : Option String) : Option String :=
  if !rule.isActive || !rule.condition.holds value then none
  else
    let text := format.formatPlain value
    if current.map trim = some text then none else some text

end PeriodSheet
