import PeriodSheet.Activity
import PeriodSheet.Json.Decode

/-!
# Schemas as stored data

How the parts of an activity's definition are written as JSON values and read back.  What a writer
writes its reader reads back as the same part; readers also accept members that are left out, where
a default is stated, and skip members that they do not know.  A reader is told where its value comes
from; the shape of an activity, whose kind stands among its members, is read as a whole first.
-/

namespace PeriodSheet

/-! ### Names, dates and numbers -/

def FieldName.ofJson? (value : Json) : Option FieldName :=
  value.text?.bind parse?

/-- A field name in its typed spelling. -/
def FieldName.toJson (name : FieldName) : Json :=
  .text name.spelling

def Date.ofJson? (value : Json) : Option Date :=
  value.text?.bind ofStored?

def Date.toJson (date : Date) : Json :=
  .text date.toText

def Decimal.ofJson? (value : Json) : Option Decimal :=
  value.text?.bind ofStored?

/-- A number as a text, with all its fraction digits. -/
def Decimal.toJson (d : Decimal) : Json :=
  .text d.toText

/-- Reads a map keyed by field names: of several keys for one name, the first gives the spelling and
the last the value. -/
def NameMap.ofJson? {α : Type} (decode : Json → Option α) (value : Json) : Option (NameMap α) := do
  let members ← value.members?
  let entries ← members.mapM fun (key, value) => do
    return (← FieldName.parse? key, ← decode value)
  return NameMap.ofList entries

def NameMap.toJson {α : Type} (encode : α → Json) (map : NameMap α) : Json :=
  .record (map.toList.map fun (name, value) => (name.spelling, encode value))

/-! ### Fields -/

def DataType.names : List (String × DataType) :=
  [("text", .text), ("long_text", .longText), ("number", .number), ("decimal", .decimal),
    ("date", .date), ("boolean", .boolean), ("dropdown", .dropdown)]

def DataType.name : DataType → String
  | .text => "text"
  | .longText => "long_text"
  | .number => "number"
  | .decimal => "decimal"
  | .date => "date"
  | .boolean => "boolean"
  | .dropdown => "dropdown"

def DataType.ofJson? (medium : Json.Medium) : Json → Option DataType :=
  Json.choice? medium names

namespace Field

/-- The members of a field, in order. -/
def memberNames : List (List String) :=
  [["name"], ["label"], ["data_type"], ["is_required"], ["show_in_list"], ["is_filter"],
    ["options"], ["default_value"], ["display_order"], ["display_width"], ["is_active"],
    ["formula"], ["is_completion_indicator"], ["is_result_indicator"], ["visible_periods"]]

def ofJson? (medium : Json.Medium) (value : Json) : Option Field := do
  let m ← value.fields? medium memberNames
  return {
    name := ← m.required? "name" FieldName.ofJson?
    label := ← m.orElse? "label" "" Json.text?
    dataType := ← m.orElse? "data_type" .text (DataType.ofJson? medium)
    isRequired := ← m.orElse? "is_required" false Json.bool?
    showInList := ← m.orElse? "show_in_list" true Json.bool?
    isFilter := ← m.orElse? "is_filter" false Json.bool?
    options := ← m.orElse? "options" [] (Json.list? Json.text?)
    defaultValue := ← m.orElse? "default_value" none (Json.nullable? Json.text?)
    displayOrder := ← m.orElse? "display_order" 0 Json.int32?
    displayWidth := ← m.orElse? "display_width" none (Json.nullable? Json.nat16?)
    isActive := ← m.orElse? "is_active" true Json.bool?
    formula := ← m.orElse? "formula" none (Json.nullable? Json.text?)
    isCompletionIndicator := ← m.orElse? "is_completion_indicator" false Json.bool?
    isResultIndicator := ← m.orElse? "is_result_indicator" false Json.bool?
    visiblePeriods := ← m.orElse? "visible_periods" [] (Json.list? Json.nat32?) }

/-- A member that is written where its list is not empty. -/
def listMember {α : Type} (name : String) (encode : α → Json) (items : List α) :
    Option (String × Json) :=
  if items.isEmpty then none else some (name, Json.ofList encode items)

def optionMember {α : Type} (name : String) (encode : α → Json) (value : Option α) :
    Option (String × Json) :=
  value.map fun value => (name, encode value)

def toJson (field : Field) : Json :=
  .ofMembers [
    some ("name", field.name.toJson),
    some ("label", .text field.label),
    some ("data_type", .text field.dataType.name),
    some ("is_required", .bool field.isRequired),
    some ("show_in_list", .bool field.showInList),
    some ("is_filter", .bool field.isFilter),
    listMember "options" .text field.options,
    optionMember "default_value" .text field.defaultValue,
    some ("display_order", .integer field.displayOrder),
    optionMember "display_width" .ofNat field.displayWidth,
    some ("is_active", .bool field.isActive),
    optionMember "formula" .text field.formula,
    some ("is_completion_indicator", .bool field.isCompletionIndicator),
    some ("is_result_indicator", .bool field.isResultIndicator),
    listMember "visible_periods" .ofNat field.visiblePeriods]

end Field

/-! ### Rules -/

namespace CarryCondition

def names : List (String × CarryCondition) :=
  [("always", .always), ("if_positive", .ifPositive), ("if_negative", .ifNegative),
    ("if_non_zero", .ifNonZero)]

def name : CarryCondition → String
  | .always => "always"
  | .ifPositive => "if_positive"
  | .ifNegative => "if_negative"
  | .ifNonZero => "if_non_zero"

end CarryCondition

namespace CarryRule

def ofJson? (medium : Json.Medium) (value : Json) : Option CarryRule := do
  let m ← value.fields? medium
    [["id"], ["origin_field"], ["destination_field"], ["condition"], ["is_active"]]
  return {
    id := ← m.required? "id" Json.int64?
    origin := ← m.required? "origin_field" FieldName.ofJson?
    destination := ← m.required? "destination_field" FieldName.ofJson?
    condition := ← m.orElse? "condition" .always (Json.choice? medium CarryCondition.names)
    isActive := ← m.orElse? "is_active" true Json.bool? }

def toJson (rule : CarryRule) : Json :=
  .record [
    ("id", .integer rule.id),
    ("origin_field", rule.origin.toJson),
    ("destination_field", rule.destination.toJson),
    ("condition", .text rule.condition.name),
    ("is_active", .bool rule.isActive)]

end CarryRule

def CarryPolicy.ofJson? (medium : Json.Medium) : Json → Option CarryPolicy :=
  Json.choice? medium [("preserve_manual", .preserveManual), ("overwrite", .overwrite)]

namespace Comparison

/-- The written names of the comparisons; the first one of each is the one that is written. -/
def names : List (String × Comparison) :=
  [("=", .eq), ("==", .eq), ("!=", .ne), ("<>", .ne), ("<", .lt), ("<=", .le), (">", .gt),
    (">=", .ge)]

def ofJson? (medium : Json.Medium) : Json → Option Comparison :=
  Json.choice? medium names

end Comparison

namespace RuleScope

/-- The written names of the scopes; the first one of each is the one that is written. -/
def names : List (String × RuleScope) :=
  [("field", .field), ("campo", .field), ("row", .row), ("riga", .row)]

def name : RuleScope → String
  | .field => "field"
  | .row => "row"

def ofJson? (medium : Json.Medium) : Json → Option RuleScope :=
  Json.choice? medium names

end RuleScope

namespace Style

def ofJson? (medium : Json.Medium) (value : Json) : Option Style := do
  let m ← value.fields? medium [["text_color"], ["background_color"], ["bold"], ["icon"]]
  return {
    textColor := ← m.orElse? "text_color" none (Json.nullable? Json.text?)
    backgroundColor := ← m.orElse? "background_color" none (Json.nullable? Json.text?)
    bold := ← m.orElse? "bold" false Json.bool?
    icon := ← m.orElse? "icon" none (Json.nullable? Json.text?) }

def toJson (style : Style) : Json :=
  .ofMembers [
    Field.optionMember "text_color" .text style.textColor,
    Field.optionMember "background_color" .text style.backgroundColor,
    some ("bold", .bool style.bold),
    Field.optionMember "icon" .text style.icon]

end Style

namespace ColourRule

def ofJson? (medium : Json.Medium) (value : Json) : Option ColourRule := do
  let m ← value.fields? medium
    [["id"], ["scope", "applica_a"], ["field"], ["operator"], ["comparison_value"], ["style"],
      ["priority"], ["is_active"]]
  return {
    id := ← m.required? "id" Json.int64?
    scope := ← m.orElse? "scope" .field (RuleScope.ofJson? medium)
    field := ← m.orElse? "field" none (Json.nullable? FieldName.ofJson?)
    comparison := ← m.required? "operator" (Comparison.ofJson? medium)
    value := ← m.required? "comparison_value" Json.text?
    style := ← m.orElse? "style" .neutral (Style.ofJson? medium)
    priority := ← m.orElse? "priority" 0 Json.int32?
    isActive := ← m.orElse? "is_active" true Json.bool? }

def toJson (rule : ColourRule) : Json :=
  .ofMembers [
    some ("id", .integer rule.id),
    some ("scope", .text rule.scope.name),
    Field.optionMember "field" FieldName.toJson rule.field,
    some ("operator", .text rule.comparison.symbol),
    some ("comparison_value", .text rule.value),
    some ("style", rule.style.toJson),
    some ("priority", .integer rule.priority),
    some ("is_active", .bool rule.isActive)]

end ColourRule

/-! ### Layouts and activities -/

namespace Layout

/-- The members of a layout, in order. -/
def memberNames : List (List String) :=
  [["name"], ["period_count"], ["period_labels"], ["period_start_dates"], ["period_end_dates"],
    ["interest_rate_default"], ["show_totals"], ["show_interest"], ["collapsed_by_default"],
    ["fields"], ["carry_over_rules"], ["color_rules"]]

def ofJson? (medium : Json.Medium) (value : Json) : Option Layout := do
  let m ← value.fields? medium memberNames
  return {
    name := ← m.required? "name" Json.text?
    periodCount := ← m.required? "period_count" Json.nat32?
    labels := ← m.required? "period_labels" (Json.list? Json.text?)
    startDates := ← m.orElse? "period_start_dates" [] (Json.list? Date.ofJson?)
    endDates := ← m.orElse? "period_end_dates" [] (Json.list? Date.ofJson?)
    interestRate := ← m.orElse? "interest_rate_default" none (Json.nullable? Decimal.ofJson?)
    showTotals := ← m.orElse? "show_totals" false Json.bool?
    showInterest := ← m.orElse? "show_interest" false Json.bool?
    collapsed := ← m.orElse? "collapsed_by_default" false Json.bool?
    fields := ← m.orElse? "fields" [] (Json.list? (Field.ofJson? medium))
    carryRules := ← m.orElse? "carry_over_rules" [] (Json.list? (CarryRule.ofJson? medium))
    colourRules := ← m.orElse? "color_rules" [] (Json.list? (ColourRule.ofJson? medium)) }

def toMembers (layout : Layout) : List (Option (String × Json)) :=
  [some ("name", .text layout.name),
    some ("period_count", .ofNat layout.periodCount),
    some ("period_labels", .ofTexts layout.labels),
    some ("period_start_dates", .ofList Date.toJson layout.startDates),
    some ("period_end_dates", .ofList Date.toJson layout.endDates),
    Field.optionMember "interest_rate_default" Decimal.toJson layout.interestRate,
    some ("show_totals", .bool layout.showTotals),
    some ("show_interest", .bool layout.showInterest),
    some ("collapsed_by_default", .bool layout.collapsed),
    some ("fields", .ofList Field.toJson layout.fields),
    some ("carry_over_rules", .ofList CarryRule.toJson layout.carryRules),
    some ("color_rules", .ofList ColourRule.toJson layout.colourRules)]

def toJson (layout : Layout) : Json :=
  .ofMembers layout.toMembers

end Layout

namespace Shape

/-- Splits the kind of a shape off its other members.  An array has the kind as its first item. -/
def splitKind? : Json → Option (String × Json)
  | .record members =>
    match members.filter (·.1 == "kind") with
    | [(_, .text kind)] => some (kind, .record (members.filter (·.1 != "kind")))
    | _ => none
  | .list (.text kind :: items) => some (kind, .list items)
  | _ => none

/-- Reads the members of a shape of a kind. -/
def ofKind? (kind : String) (value : Json) : Option Shape :=
  if kind = "plain" then do
    let m ← value.fields? .tagged [["fields"], ["color_rules"]]
    return .plain (← m.orElse? "fields" [] (Json.list? (Field.ofJson? .tagged)))
      (← m.orElse? "color_rules" [] (Json.list? (ColourRule.ofJson? .tagged)))
  else if kind = "periodic" then (Layout.ofJson? .tagged value).map .periodic
  else none

/-- Reads a shape.  All of it is read before its kind is known, so nothing in it may be
unreadable. -/
def ofJson? (value : Json) : Option Shape := do
  let (kind, members) ← splitKind? value
  if value.isReadable then ofKind? kind members else none

/-- A shape as stored data: its kind before its other members. -/
def toJson : Shape → Json
  | .plain fields colourRules =>
    .record [("kind", .text "plain"), ("fields", .ofList Field.toJson fields),
      ("color_rules", .ofList ColourRule.toJson colourRules)]
  | .periodic layout => .ofMembers (some ("kind", .text "periodic") :: layout.toMembers)

end Shape

namespace Activity

def ofJson? (medium : Json.Medium) (value : Json) : Option Activity := do
  let m ← value.fields? medium [["id"], ["name"], ["description"], ["layout"]]
  return {
    id := ← m.required? "id" Json.int64?
    name := ← m.required? "name" Json.text?
    description := ← m.orElse? "description" "" Json.text?
    shape := ← m.required? "layout" Shape.ofJson? }

def toJson (activity : Activity) : Json :=
  .record [("id", .integer activity.id), ("name", .text activity.name),
    ("description", .text activity.description), ("layout", activity.shape.toJson)]

end Activity

end PeriodSheet
