import PeriodSheet.Calendar
import PeriodSheet.Decimal.Entered
import PeriodSheet.Field

/-!
# Typed values

What the raw text of a cell means for its field.  Blank text is no value, whatever the field holds;
other text is read as the field's data type asks, or is an error that names the text.
-/

namespace PeriodSheet

open Text

inductive Value where
  | text (value : String)
  | number (value : Int)
  | decimal (value : Decimal)
  | date (value : Date)
  | bool (value : Bool)
deriving DecidableEq

/-- Why a text is not a value of a field; `raw` is the text without the white space around it. -/
inductive ValueError where
  | notANumber (raw : String)
  | notAnInteger (raw : String)
  | notADate (raw : String)
  | notABoolean (raw : String)
  | notAnOption (raw : String) (options : List String)
deriving DecidableEq

namespace ValueError

def raw : ValueError → String
  | .notANumber raw => raw
  | .notAnInteger raw => raw
  | .notADate raw => raw
  | .notABoolean raw => raw
  | .notAnOption raw _ => raw

def message : ValueError → String
  | .notANumber raw => "'" ++ raw ++ "' is not a number"
  | .notAnInteger raw => "'" ++ raw ++ "' is not a whole number"
  | .notADate raw => "'" ++ raw ++ "' is not a date (expected YYYY-MM-DD or DD/MM/YYYY)"
  | .notABoolean raw => "'" ++ raw ++ "' is not a yes/no value"
  | .notAnOption raw options => "'" ++ raw ++ "' is not one of: " ++ ", ".intercalate options

def kind : ValueError → String
  | .notANumber _ => "not_a_number"
  | .notAnInteger _ => "not_an_integer"
  | .notADate _ => "not_a_date"
  | .notABoolean _ => "not_a_boolean"
  | .notAnOption .. => "not_an_option"

def toJson (error : ValueError) : Json :=
  .record (("kind", .text error.kind) :: ("raw", .text error.raw) :: match error with
    | .notAnOption _ options => [("options", .ofTexts options)]
    | _ => [])

end ValueError

/-- The integer that a number is, where it has no fraction and fits 64 bits. -/
def Decimal.toInt64? (d : Decimal) : Option Int :=
  let n := d.signed / tenPow d.scale
  if d.signed % tenPow d.scale = 0 ∧ -(twoPow 63 : Int) ≤ n ∧ n < twoPow 63 then some n else none

namespace Value

/-- The truth value that a text means, in any case. -/
def boolOf? (text : String) : Option Bool :=
  let word := lower text
  if ["true", "1", "si", "sì", "yes", "on"].contains word then some true
  else if ["false", "0", "no", "off"].contains word then some false
  else none

/-- The value of a text that is not blank; `trimmed` is the text without white space around it. -/
def ofText (field : Field) (raw trimmed : String) : Except ValueError Value :=
  match field.dataType with
  -- texts keep the white space around them
  | .text => .ok (.text raw)
  | .longText => .ok (.text raw)
  | .dropdown =>
    if !field.options.isEmpty && !field.options.contains trimmed then
      .error (.notAnOption trimmed field.options)
    else .ok (.text trimmed)
  | .number =>
    match Decimal.ofEntered? trimmed with
    | none => .error (.notANumber trimmed)
    | some d =>
      match d.toInt64? with
      | none => .error (.notAnInteger trimmed)
      | some n => .ok (.number n)
  | .decimal =>
    match Decimal.ofEntered? trimmed with
    | none => .error (.notANumber trimmed)
    | some d => .ok (.decimal d)
  | .date =>
    match Date.ofEntered? trimmed with
    | none => .error (.notADate trimmed)
    | some d => .ok (.date d)
  | .boolean =>
    match boolOf? trimmed with
    | none => .error (.notABoolean trimmed)
    | some b => .ok (.bool b)

/-- The value of the raw text of a field; none where the text is blank. -/
def parse (field : Field) (raw : String) : Except ValueError (Option Value) :=
  if isBlankText raw then .ok none else (ofText field raw (trim raw)).map some

def toText : Value → String
  | .text s => s
  | .number n => ofInt n
  | .decimal d => d.toText
  | .date d => d.toText
  | .bool true => "true"
  | .bool false => "false"

def toDecimal? : Value → Option Decimal
  | .number n => Decimal.ofParts? (n < 0) n.natAbs 0
  | .decimal d => some d
  | _ => none

def toJson (value : Value) : Json :=
  let content : String × Json := match value with
    | .text s => ("text", .text s)
    | .number n => ("number", .integer n)
    | .decimal d => ("decimal", .text d.toText)
    | .date d => ("date", .text d.toText)
    | .bool b => ("bool", .bool b)
  .record [("type", .text content.1), ("value", content.2)]

end Value

end PeriodSheet
