import PeriodSheet.Issue
import PeriodSheet.NameMap

/-!
# Colour rules

A colour rule gives a cell, or the whole row of a period, a style where a value compares to the
rule's own in a given way.  Of several rules that match, the one of highest priority and then
highest id decides alone; of equal ones, the last.
-/

namespace PeriodSheet

open Text

/-! ### Comparisons -/

/-- How a value compares to the value of a rule. -/
inductive Comparison where
  | eq
  | ne
  | lt
  | le
  | gt
  | ge
deriving DecidableEq

namespace Comparison

def symbol : Comparison → String
  | .eq => "="
  | .ne => "!="
  | .lt => "<"
  | .le => "<="
  | .gt => ">"
  | .ge => ">="

/-- Whether the comparison needs values that can be ordered. -/
def isOrdering : Comparison → Bool
  | .eq => false
  | .ne => false
  | _ => true

/-- Whether the comparison holds of a left side in this order to the right side. -/
def accepts : Comparison → Ordering → Bool
  | .eq, o => o == .eq
  | .ne, o => o != .eq
  | .lt, o => o == .lt
  | .le, o => o != .gt
  | .gt, o => o == .gt
  | .ge, o => o != .lt

/-- Whether the comparison holds of two texts: by number where both are numbers; else equality goes
by the texts without white space around them, and no ordering holds. -/
def holds (comparison : Comparison) (left right : String) : Bool :=
  match Decimal.ofEntered? left, Decimal.ofEntered? right with
  | some a, some b => comparison.accepts (a.compare b)
  | _, _ =>
    -- the order of texts would put `10` before `9`
    match comparison with
    | .eq => trim left == trim right
    | .ne => trim left != trim right
    | _ => false

end Comparison

/-! ### Rules -/

inductive RuleScope where
  | field
  | row
deriving DecidableEq

/-- How a cell or a row is shown. -/
structure Style where
  textColor : Option String := none
  backgroundColor : Option String := none
  bold : Bool := false
  icon : Option String := none
deriving DecidableEq

namespace Style

/-- The style that sets nothing. -/
def neutral : Style := {}

def isNeutral (style : Style) : Bool :=
  style == neutral

end Style

/-- A rule that styles what compares to its value in a given way. -/
structure ColourRule where
  id : Int
  scope : RuleScope := .field
  /-- The field whose value is compared; a row rule without one compares every value. -/
  field : Option FieldName := none
  comparison : Comparison
  value : String
  style : Style := .neutral
  priority : Int := 0
  isActive : Bool := true
deriving DecidableEq

namespace ColourRule

/-- The rule's target as its description names it. -/
def target (rule : ColourRule) : String :=
  match rule.scope, rule.field with
  | .field, some field => field.spelling
  | .field, none => "?"
  | .row, some field => "row." ++ field.spelling
  | .row, none => "row.*"

def describe (rule : ColourRule) : String :=
  "color(" ++ rule.target ++ " " ++ rule.comparison.symbol ++ " " ++ rule.value ++ ") priority " ++
    ofInt rule.priority

def isMatch (rule : ColourRule) (value : String) : Bool :=
  rule.comparison.holds value rule.value

/-- Whether the rule matches a row: the value of its field, or any value where it has none. -/
def isRowMatch (rule : ColourRule) (row : NameMap String) : Bool :=
  match rule.field with
  | some field => (row.get? field).any rule.isMatch
  | none => row.toList.any fun entry => rule.isMatch entry.2

/-- Whether a rule gives way to another that stands after it. -/
def yieldsTo (a b : ColourRule) : Bool :=
  a.priority < b.priority || (a.priority == b.priority && a.id ≤ b.id)

/-- The rule that decides among some. -/
def winner? : List ColourRule → Option ColourRule
  | [] => none
  | rule :: rest =>
    some (rest.foldl (fun best next => if best.yieldsTo next then next else best) rule)

/-- The style of the deciding rule; neutral where there is none. -/
def styleOf (rules : List ColourRule) : Style :=
  match winner? rules with
  | some rule => rule.style
  | none => .neutral

/-- Whether the rule styles the cell of a field with this value. -/
def appliesToCell (field : FieldName) (value : String) (rule : ColourRule) : Bool :=
  rule.isActive && rule.scope == .field && rule.field.any (·.same field) && rule.isMatch value

def appliesToRow (row : NameMap String) (rule : ColourRule) : Bool :=
  rule.isActive && rule.scope == .row && rule.isRowMatch row

def cellStyle (rules : List ColourRule) (field : FieldName) (value : String) : Style :=
  styleOf (rules.filter (appliesToCell field value))

def rowStyle (rules : List ColourRule) (row : NameMap String) : Style :=
  styleOf (rules.filter (appliesToRow row))

/-! ### Checking -/

/-- What is wrong with the field that a rule names. -/
def checkTarget (rule : ColourRule) (fields : List Field) : List IssueCause :=
  match rule.field, rule.scope with
  | some name, _ =>
    if (Field.find? fields name).isSome then [] else [.unknownRuleField name.spelling]
  | none, .field => [.unnamedRuleField]
  | none, .row => []

def checkComparison (rule : ColourRule) (fields : List Field) : List IssueCause :=
  if !rule.comparison.isOrdering then []
  else if (Decimal.ofEntered? rule.value).isNone then
    [.comparisonNotNumeric rule.comparison.symbol rule.value]
  else
    match rule.field.bind (Field.find? fields) with
    | none => []
    | some field =>
      if !field.isCalculated && !field.dataType.isNumeric then
        [.fieldNotOrdered rule.comparison.symbol field.dataType field.name.spelling]
      else []

def check (rule : ColourRule) (fields : List Field) : List Issue :=
  (rule.checkTarget fields ++ rule.checkComparison fields).map fun cause =>
    ⟨"color rule " ++ ofInt rule.id, cause⟩

end ColourRule

end PeriodSheet
