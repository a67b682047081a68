import PeriodSheet.Formula.Eval

/-!
# Checking formulas

The check that a formula passes before it may be saved with a calculated field: it reads as a
formula, refers to at least one field, refers only to fields that exist and are entered by the user,
and has a value when each of them is one.
-/

namespace PeriodSheet

/-- A field as far as formulas see it. -/
structure Referable where
  name : FieldName
  calculated : Bool

/-- Why a formula may not be saved. -/
inductive FormulaRejection where
  | unreadable (error : FormulaError)
  | noReference (available : List String)
  | unknownField (name : String) (available : List String)
  | calculatedField (name : String) (available : List String)
  | trialFailed (error : FormulaError)

namespace FormulaRejection

def message : FormulaRejection → String
  | .unreadable error => "invalid formula: " ++ error.message
  | .noReference available =>
    "formula must reference at least one field; available fields: " ++ ", ".intercalate available
  | .unknownField name available =>
    "field '" ++ name ++ "' does not exist; available fields: " ++ ", ".intercalate available
  | .calculatedField name available =>
    "field '" ++ name ++ "' is calculated and cannot be referenced; available fields: " ++
      ", ".intercalate available
  | .trialFailed error => "formula fails when every field is 1: " ++ error.message

/-- The fields that the formula could have referred to, where that is what was wrong. -/
def available : FormulaRejection → List String
  | .noReference available => available
  | .unknownField _ available => available
  | .calculatedField _ available => available
  | .unreadable _ => []
  | .trialFailed _ => []

end FormulaRejection

namespace Formula

/-- The first reference that does not name an entered field. -/
def badReference? (fields : List Referable) (available : List String) :
    List FieldName → Option FormulaRejection
  | [] => none
  | name :: rest =>
    match fields.find? (·.name.same name) with
    | none => some (.unknownField name.spelling available)
    | some field =>
      if field.calculated then some (.calculatedField field.name.spelling available)
      else badReference? fields available rest

/-- The source in which each of some fields is one. -/
def allOnes (names : List FieldName) : Source := fun name =>
  if names.any (·.same name) then .number .one else .missing

/-- Why a formula may not be saved beside the given fields; nothing where it may. -/
def check (fields : List Referable) (text : String) : Option FormulaRejection :=
  let available := (fields.filter (!·.calculated)).map (·.name.spelling)
  match parse text with
  | .error error => some (.unreadable error)
  | .ok formula =>
    let references := formula.references
    if references.isEmpty then some (.noReference available)
    else match badReference? fields available references with
      | some rejection => some rejection
      | none =>
        match formula.eval (allOnes references) with
        | .error error => some (.trialFailed error)
        | .ok _ => none

end Formula

end PeriodSheet
