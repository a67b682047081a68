import PeriodSheet.Schema.Stored
import PeriodSheet.Text.WholeNumber
import PeriodSheet.Toml.Reader

/-!
# Settings

What a deployment decides, as opposed to a schema: how computed numbers are written, whether
carrying may replace what a user typed, and how long a formula may be.  Settings are read from a
stored document; named variables of the environment may then override single members.
-/

namespace PeriodSheet

open Text

/-- The settings of a deployment. -/
structure Settings where
  numberFormat : NumberFormat := .standard
  carryPolicy : CarryPolicy := .preserveManual
  /-- The length of the longest formula that is accepted, in characters. -/
  maxFormulaLength : Nat := 1024
deriving DecidableEq

instance : Inhabited Settings := ⟨{}⟩

namespace Settings

/-- The standard settings with a point for the decimal mark. -/
def international : Settings :=
  { numberFormat := ⟨'.', 2⟩ }

/-! ### Stored settings -/

def numberFormatOfJson? (medium : Json.Medium) (value : Json) : Option NumberFormat := do
  let m ← value.fields? medium [["decimal_separator"], ["fraction_digits"]]
  return ⟨← m.required? "decimal_separator" Json.char?, ← m.required? "fraction_digits" Json.nat32?⟩

def numberFormatToJson (format : NumberFormat) : Json :=
  .record [("decimal_separator", .text (String.singleton format.separator)),
    ("fraction_digits", .ofNat format.fractionDigits)]

/-- Reads settings; a member that is not given has its standard value. -/
def ofJson? (medium : Json.Medium) (value : Json) : Option Settings := do
  let m ← value.fields? medium [["number_format"], ["carry_policy"], ["max_formula_length"]]
  return {
    numberFormat := ← m.orElse? "number_format" .standard (numberFormatOfJson? medium)
    carryPolicy := ← m.orElse? "carry_policy" .preserveManual (CarryPolicy.ofJson? medium)
    maxFormulaLength := ← m.orElse? "max_formula_length" 1024 Json.nat64? }

def toJson (settings : Settings) : Json :=
  .record [("number_format", numberFormatToJson settings.numberFormat),
    ("carry_policy", .text settings.carryPolicy.name),
    ("max_formula_length", .ofNat settings.maxFormulaLength)]

def ofTomlText? (text : String) : Option Settings :=
  (Toml.parse? text).bind (ofJson? .toml)

/-! ### Overrides -/

/-- Why the value of an overriding variable is not accepted. -/
inductive OverrideError where
  /-- The decimal mark is neither a comma nor a point. -/
  | separator (value : String)
  /-- The number of fraction digits is not a number; what is wrong with it. -/
  | digits (cause : WholeNumberError)
  /-- There are too many fraction digits. -/
  | tooManyDigits (count : Nat)
  /-- The word is no carry policy. -/
  | policy (word : String)
deriving DecidableEq

namespace OverrideError

def messages : OverrideError → List String
  | .separator value =>
    ["ACTIVITY_ENGINE_DECIMAL_SEPARATOR must be ',' or '.', got '" ++ value ++ "'"]
  | .digits cause => ["ACTIVITY_ENGINE_FRACTION_DIGITS must be a whole number", cause.message]
  | .tooManyDigits count =>
    ["ACTIVITY_ENGINE_FRACTION_DIGITS must be at most 10, got " ++ ofNat count]
  | .policy word => [CarryPolicy.unknownMessage word]

end OverrideError

/-- The decimal mark that a variable asks for. -/
def separatorOf (value : String) : Except OverrideError Char :=
  match trimChars value.toList with
  | [c] => if c = ',' ∨ c = '.' then .ok c else .error (.separator value)
  | _ => .error (.separator value)

def digitsOf (value : String) : Except OverrideError Nat :=
  match wholeNumber 32 (trimChars value.toList) with
  | .error cause => .error (.digits cause)
  | .ok count => if 10 < count then .error (.tooManyDigits count) else .ok count

/-- Applies one override, where its variable is set. -/
def override {α : Type} (setting : Option String) (read : String → Except OverrideError α)
    (write : α → Settings → Settings) (settings : Settings) : Settings × Option OverrideError :=
  match setting with
  | none => (settings, none)
  | some value =>
    match read value with
    | .ok a => (write a settings, none)
    | .error error => (settings, some error)

/-- Applies the overrides in order, up to the first one that is not accepted. -/
def overrideAll (settings : Settings) :
    List (Settings → Settings × Option OverrideError) → Settings × Option OverrideError
  | [] => (settings, none)
  | apply :: rest =>
    match apply settings with
    | (settings, none) => overrideAll settings rest
    | stopped => stopped

/-- The settings after the overrides of an environment, with the error that stopped them: those
before it stand. -/
def withEnvironment (settings : Settings) (lookup : String → Option String) :
    Settings × Option OverrideError :=
  settings.overrideAll
    [override (lookup "ACTIVITY_ENGINE_DECIMAL_SEPARATOR") separatorOf fun c settings =>
      { settings with numberFormat.separator := c },
    override (lookup "ACTIVITY_ENGINE_FRACTION_DIGITS") digitsOf fun count settings =>
      { settings with numberFormat.fractionDigits := count },
    override (lookup "ACTIVITY_ENGINE_CARRY_POLICY")
      (fun value => (CarryPolicy.parse value).mapError .policy) fun policy settings =>
      { settings with carryPolicy := policy }]

end Settings

end PeriodSheet
