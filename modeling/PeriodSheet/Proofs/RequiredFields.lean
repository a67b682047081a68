import PeriodSheet.Proofs.DerivedValues
import PeriodSheet.Proofs.View

/-!
# Required fields

A cell is flagged where its field is required and has no valid text, be it a raw one or a default.
That is so where the field was left blank, and also where the text that stands in it is rejected:
such a cell is flagged as missing, and shows the text with its error all the same.
-/

namespace PeriodSheet

namespace Field

/-- Whether the user has to fill a field in. -/
def IsAsked (field : Field) : Prop :=
  field.isRequired = true ∧ field.isCalculated = false

/-- Whether a field that the user has to fill in was left blank, with no default that helps. -/
def IsLeftBlank (field : Field) (entry : PeriodEntry) : Prop :=
  field.IsAsked ∧ entry.raw? field.name = none ∧
    ∀ text ∈ field.defaultValue, ¬ field.Accepts text

/-- Whether a field that the user has to fill in holds a text that is rejected. -/
def IsRejected (field : Field) (entry : PeriodEntry) : Prop :=
  field.IsAsked ∧ ∃ text, entry.raw? field.name = some text ∧ ¬ field.Accepts text

variable {field : Field} {entry : PeriodEntry}

theorem not_isRejected_of_isLeftBlank (h : field.IsLeftBlank entry) : ¬ field.IsRejected entry := by
  rintro ⟨-, text, htext, -⟩
  rw [h.2.1] at htext
  cases htext

/-- A field that has to be filled in has no valid text where it was left blank, or where the text in
it is rejected. -/
theorem isLeftBlank_or_isRejected_iff :
    field.IsLeftBlank entry ∨ field.IsRejected entry ↔
      field.IsAsked ∧ field.validText? entry = none := by
  rw [IsLeftBlank, IsRejected, ← and_or_left, validText?_eq_none_iff]
  refine and_congr_right fun _ => ?_
  rw [PeriodView.textOf?, Option.bind_some]
  -- the default stands in for a raw text only where there is none
  cases entry.raw? field.name with
  | none => simp
  | some raw => simp

end Field

/-! ### Cells -/

namespace PeriodEntry

variable {activity : Activity}

/-- The cell of a field in the row of an entry. -/
def cell (plan : Plan) (entry : PeriodEntry) (field : Field) : Cell :=
  ComputedPeriod.cell plan.activity.colourRules
    ⟨entry.period, entry.view plan, entry.outcome plan, entry⟩ field

theorem missingRequired_cell (settings : Settings) (hnames : activity.NamesDistinct)
    (entry : PeriodEntry) {field : Field} (hfield : field ∈ activity.activeFields) :
    (entry.cell (.ofActivity settings activity) field).missingRequired = true ↔
      field.IsLeftBlank entry ∨ field.IsRejected entry := by
  rw [Field.isLeftBlank_or_isRejected_iff, Field.IsAsked, cell, ComputedPeriod.cell,
    ComputedPeriod.effective?]
  cases hcalculated : field.isCalculated with
  | true => simp
  | false =>
    simp [Activity.get?_raw_view_of_entered hnames entry hfield hcalculated]

/-- A rejected text is shown, with its error. -/
theorem isRejected_iff_cell (settings : Settings) (hnames : activity.NamesDistinct)
    (entry : PeriodEntry) {field : Field} (hfield : field ∈ activity.activeFields) :
    field.IsRejected entry ↔ field.isRequired = true ∧
      (entry.cell (.ofActivity settings activity) field).raw.isSome = true ∧
      (entry.cell (.ofActivity settings activity) field).error.isSome = true := by
  rw [Field.IsRejected, Field.IsAsked, cell, ComputedPeriod.cell, ComputedPeriod.error?]
  cases hcalculated : field.isCalculated with
  | true => simp
  | false =>
    have herror : (entry.view (.ofActivity settings activity)).invalid.get? field.name =
        field.textError? entry :=
      Activity.get?_invalid_view_of_entered hnames entry hfield hcalculated
    cases hraw : entry.raw? field.name with
    | none => simp
    | some text => simp [herror, Field.isSome_textError?_iff hraw]

end PeriodEntry

/-! ### Computed sheets -/

namespace Computation

/-- **A required cell is flagged where its field has no valid text.**  In a sheet that is computed
from sorted records, where the names of the active fields are distinct, take the cell of a field.

* It is flagged where the field, which the user has to fill in, was left blank, and also where a
  text stands in it that is rejected.
* The second is so exactly where the field is required and the cell shows a text with an error.
* So being flagged means having been left blank in all other cells, and only in these. -/
theorem ofRecord_missingRequired (activity : Activity) (settings : Settings)
    (hnames : activity.NamesDistinct) (record : Record) (hsorted : record.Sorted)
    (range : PeriodRange) :
    let computation := ofRecord (.ofActivity settings activity) record range
    ∀ row ∈ computation.sheet.rows, ∃ entry,
      computation.record.entry? row.period = some entry ∧
      ∀ cell ∈ row.cells, ∃ field ∈ activity.activeFields, cell.field = field.name ∧
        (cell.missingRequired = true ↔ field.IsLeftBlank entry ∨ field.IsRejected entry) ∧
        (field.IsRejected entry ↔
          field.isRequired = true ∧ cell.raw.isSome = true ∧ cell.error.isSome = true) ∧
        ((cell.missingRequired = true ↔ field.IsLeftBlank entry) ↔
          ¬ field.IsRejected entry) := by
  intro computation row hrow
  obtain ⟨entry, rfl, -, hentry⟩ := exists_entry_of_mem_rows hsorted hrow
  refine ⟨entry, hentry, fun cell hcell => ?_⟩
  obtain ⟨field, hvisible, rfl⟩ := List.mem_map.1 hcell
  have hfield : field ∈ activity.activeFields := (List.mem_filter.1 hvisible).1
  have hmissing := PeriodEntry.missingRequired_cell settings hnames entry hfield
  have hrejected := PeriodEntry.isRejected_iff_cell settings hnames entry hfield
  refine ⟨field, hfield, rfl, hmissing, hrejected, ?_⟩
  -- a field with a rejected text was not left blank, so that the flag means something else there
  refine (iff_congr hmissing Iff.rfl).trans (or_iff_left_iff_imp.trans ?_)
  exact ⟨fun h hrejected => Field.not_isRejected_of_isLeftBlank (h hrejected) hrejected,
    fun h hrejected => absurd hrejected h⟩

end Computation

/-! ### Required payments -/

namespace Payments

/-- An activity without periods, in which the payment has to be filled in. -/
def activity : Activity :=
  .plain 1 "Payments" [{ Field.entered Credits.paid .decimal with isRequired := true }]

theorem ordered_fields : (activity.fields.filter (·.isActive)).Pairwise fun a b =>
    a.displaysBefore b = true := by
  decide +kernel

theorem namesDistinct : activity.NamesDistinct := by
  rw [Activity.NamesDistinct, Activity.activeFields_of_ordered ordered_fields]
  decide +kernel

/-- A record with some raw values. -/
def record (raw : NameMap String) : Record :=
  { client := 42, activity := 1, entries := [{ period := 1, raw }] }

end Payments

/-- A payment that was left blank is flagged. -/
theorem Computation.ofRecord_missingRequired_payments :
    let plan := Plan.ofActivity {} Payments.activity
    let entered := Payments.record .empty
    let computation := ofRecord plan entered .all
    Payments.activity.NamesDistinct ∧ entered.Sorted ∧
      ∃ row ∈ computation.sheet.rows, ∃ entry,
        computation.record.entry? row.period = some entry ∧
        ∃ cell ∈ row.cells, cell.missingRequired = true ∧
          ∃ field ∈ Payments.activity.activeFields, cell.field = field.name ∧
            field.IsLeftBlank entry := by
  intro plan entered computation
  have hplan : plan = .ofFields {} Payments.activity
      (Payments.activity.fields.filter (·.isActive)) :=
    Plan.ofActivity_of_ordered Payments.ordered_fields
  have hsorted : entered.Sorted := by decide
  have hcell : ∃ row ∈ computation.sheet.rows, ∃ cell ∈ row.cells,
      cell.missingRequired = true ∧ cell.error = none := by
    simp only [computation, hplan]
    decide +kernel
  obtain ⟨row, hrow, cell, hcell, hmissing, herror⟩ := hcell
  obtain ⟨entry, hentry, hcells⟩ := ofRecord_missingRequired Payments.activity {}
    Payments.namesDistinct entered hsorted .all row hrow
  obtain ⟨field, hfield, hname, -, hrejected, hblank⟩ := hcells cell hcell
  -- a cell without an error does not show a rejected text
  have hfree : ¬ field.IsRejected entry := by
    rw [hrejected, herror]
    rintro ⟨-, -, hnone⟩
    cases hnone
  exact ⟨Payments.namesDistinct, hsorted, row, hrow, entry, hentry, cell, hcell, hmissing, field,
    hfield, hname, (hblank.2 hfree).1 hmissing⟩

/-- **A rejected text is flagged as missing.**  The payment was filled in with a text that is not a
number. -/
theorem Computation.ofRecord_missingRequired_rejected :
    let entered := Payments.record (NameMap.empty.insert Credits.paid "abc")
    let computation := ofRecord (.ofActivity {} Payments.activity) entered .all
    Payments.activity.NamesDistinct ∧ entered.Sorted ∧
      (computation.record.entry? 1).bind (·.raw? Credits.paid) = some "abc" ∧
      ((computation.sheet.row? 1).bind (·.cell? Credits.paid)).map
          (fun cell => (cell.raw, cell.error, cell.missingRequired)) =
        some (some "abc", some (.invalid (.notANumber "abc")), true) := by
  intro entered computation
  have hplan : Plan.ofActivity {} Payments.activity =
      .ofFields {} Payments.activity (Payments.activity.fields.filter (·.isActive)) :=
    Plan.ofActivity_of_ordered Payments.ordered_fields
  refine ⟨Payments.namesDistinct, by decide, ?_, ?_⟩
  · simp only [computation, hplan]
    decide +kernel
  · simp only [computation, hplan]
    decide +kernel

end PeriodSheet
