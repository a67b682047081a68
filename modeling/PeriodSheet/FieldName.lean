import PeriodSheet.Text.Blank
import PeriodSheet.Text.Lowercase

/-!
# Field names

The name of a field keeps the spelling it was typed with and is compared by its key, the lower-case
form: formulas may write `[Balance]` and `[BALANCE]` for the same field.  A name is never empty, has
no white space at either end, and has no brackets, so that `[Name]` always ends where the name does.
-/

namespace PeriodSheet

open Text

/-- Whether a text may be the spelling of a field name. -/
def IsSpelling (s : String) : Prop :=
  s.toList ≠ [] ∧ trimChars s.toList = s.toList ∧ '[' ∉ s.toList ∧ ']' ∉ s.toList

instance (s : String) : Decidable (IsSpelling s) :=
  inferInstanceAs (Decidable (_ ∧ _ ∧ _ ∧ _))

/-- The name of a field, with the key that it is compared by. -/
structure FieldName where
  spelling : String
  key : String
  isSpelling : IsSpelling spelling
  key_eq : key = lower spelling
deriving DecidableEq

/-- Why a text is not a field name. -/
inductive NameError where
  /-- There is nothing but white space. -/
  | empty
  /-- The trimmed text has a bracket. -/
  | bracket (name : String)
deriving DecidableEq

def NameError.message : NameError → String
  | .empty => "field name cannot be empty"
  | .bracket name => "field name '" ++ name ++ "' cannot contain '[' or ']'"

namespace FieldName

/-- Whether a character is one of the two that enclose a reference. -/
def isBracket (c : Char) : Bool :=
  c == '[' || c == ']'

/-- Reads a field name; white space at either end is not part of it. -/
def parse (text : String) : Except NameError FieldName :=
  let trimmed := trim text
  if hempty : trimmed.toList = [] then .error .empty
  else if hbracket : trimmed.toList.any isBracket then .error (.bracket trimmed)
  else
    .ok
      { spelling := trimmed
        key := lower trimmed
        isSpelling := by
          have hnone : ∀ c ∈ trimmed.toList, isBracket c = false := by simpa using hbracket
          refine ⟨hempty, ?_, fun h => ?_, fun h => ?_⟩
          · simp only [trimmed, trim, String.toList_ofList, trimChars_trimChars]
          · exact absurd (hnone _ h) (by decide)
          · exact absurd (hnone _ h) (by decide)
        key_eq := rfl }

def parse? (text : String) : Option FieldName :=
  (parse text).toOption

/-- Whether two names mean the same field. -/
def same (a b : FieldName) : Bool :=
  a.key == b.key

/-- Whether a plain text means the field, case and white space at the ends aside. -/
def isSpelledBy (name : FieldName) (text : String) : Bool :=
  name.key == lower (trim text)

/-- How formulas refer to the field. -/
def reference (name : FieldName) : String :=
  "[" ++ name.spelling ++ "]"

def compare (a b : FieldName) : Ordering :=
  Ord.compare a.key b.key

theorem eq_of_spelling {a b : FieldName} (h : a.spelling = b.spelling) : a = b := by
  cases a with
  | mk spelling key isSpelling key_eq =>
    cases b with
    | mk spelling' key' isSpelling' key_eq' =>
      obtain rfl : spelling = spelling' := h
      rw [← key_eq'] at key_eq
      simp [key_eq]

theorem parse_spelling (name : FieldName) : parse name.spelling = .ok name := by
  obtain ⟨hne, htrim, hopen, hclose⟩ := name.isSpelling
  have htext : trim name.spelling = name.spelling := by
    rw [trim, htrim, String.ofList_toList]
  have hany : name.spelling.toList.any isBracket = false := by
    rw [List.any_eq_false]
    intro c hc hbracket
    rcases Bool.or_eq_true_iff.1 hbracket with h | h
    · exact hopen (eq_of_beq h ▸ hc)
    · exact hclose (eq_of_beq h ▸ hc)
  unfold parse
  rw [dif_neg (by rw [htext]; exact hne), dif_neg (by rw [htext, hany]; decide)]
  exact congrArg Except.ok (eq_of_spelling htext)

theorem same_refl (a : FieldName) : a.same a = true :=
  beq_self_eq_true _

theorem same_iff {a b : FieldName} : a.same b = true ↔ a.key = b.key :=
  beq_iff_eq

end FieldName

end PeriodSheet
