import PeriodSheet.Proofs.CarryEvents
import PeriodSheet.Proofs.DerivedValues
import PeriodSheet.Proofs.Evaluation
import PeriodSheet.Proofs.NumberFormat
import PeriodSheet.Proofs.Savable

/-!
# What a carried value is received as

A carry rule writes the text of a number into the raw values of the next period, where that text is
read as a value of its field like any other.  A decimal field takes every number and a number field
the whole ones of 64 bits (`Field.Takes`): formulas then read the number that was carried, rounded
as it was written.  Any other number is an invalid text there, and formulas read nothing
(`Computation.ofRecord_received`).
-/

namespace PeriodSheet

open Text Decimal

/-! ### Reading the text of a number -/

/-- Whether a number is a value of a numeric field. -/
def Field.Takes (field : Field) (number : ℚ) : Prop :=
  field.dataType = .decimal ∨ ∃ n : Int, number = n ∧ -2 ^ 63 ≤ n ∧ n < 2 ^ 63

namespace Value

variable {format : NumberFormat} {field : Field}

/-- The text of a number is read as it stands. -/
theorem parse_formatPlain (format : NumberFormat) (field : Field) (d : Decimal) :
    Value.parse field (format.formatPlain d) =
      (Value.ofText field (format.formatPlain d) (format.formatPlain d)).map some := by
  obtain ⟨hshown, htrim⟩ := format.isTrimmed_formatPlain d
  rw [Value.parse, hshown, htrim]
  rfl

theorem exists_parse_formatPlain (hmark : isMark format.separator = true)
    (hnumeric : field.dataType.isNumeric = true) {d : Decimal}
    (htakes : field.Takes (format.round d).value) :
    ∃ value, Value.parse field (format.formatPlain d) = .ok (some value) := by
  rw [parse_formatPlain, ofText, NumberFormat.ofEntered?_formatPlain hmark]
  cases htype : field.dataType with
  | decimal => exact ⟨_, rfl⟩
  | number =>
    obtain ⟨n, hvalue, hbounds⟩ := htakes.resolve_left fun hdecimal => by
      rw [htype] at hdecimal
      cases hdecimal
    have hread := Decimal.toInt64?_eq_some.2
      ⟨((format.round d).value_normalize).trans hvalue, hbounds⟩
    exact ⟨.number n, by simp only [hread]; rfl⟩
  | _ => rw [htype] at hnumeric; cases hnumeric

/-- A number that a field does not take is no whole number to it. -/
theorem parse_formatPlain_of_not_takes (hmark : isMark format.separator = true)
    (hnumeric : field.dataType.isNumeric = true) {d : Decimal}
    (htakes : ¬ field.Takes (format.round d).value) :
    Value.parse field (format.formatPlain d) = .error (.notAnInteger (format.formatPlain d)) := by
  rw [parse_formatPlain, ofText, NumberFormat.ofEntered?_formatPlain hmark]
  cases htype : field.dataType with
  | decimal => exact absurd (.inl htype) htakes
  | number =>
    have hread : (format.round d).normalize.toInt64? = none := by
      rw [Option.eq_none_iff_forall_ne_some]
      intro n hn
      obtain ⟨hvalue, hbounds⟩ := Decimal.toInt64?_eq_some.1 hn
      exact htakes (.inr ⟨n, ((format.round d).value_normalize).symm.trans hvalue, hbounds⟩)
    simp only [hread]
    rfl
  | _ => rw [htype] at hnumeric; cases hnumeric

end Value

/-! ### What formulas read -/

/-- Evaluating fields of other names computes nothing for a name. -/
theorem Outcome.get?_computed_foldl_add {plan : Plan} {period : Nat} {view : PeriodView}
    {name : FieldName} {steps : List PlannedField}
    (hother : ∀ planned ∈ steps, planned.name.same name = false) (outcome : Outcome) :
    (steps.foldl (add plan period view) outcome).computed.get? name =
      outcome.computed.get? name := by
  induction steps generalizing outcome with
  | nil => rfl
  | cons planned rest ih =>
    rw [List.foldl_cons, ih fun p hp => hother p (List.mem_cons_of_mem planned hp), add]
    cases valueOf plan view outcome planned with
    | ok value =>
      rw [NameMap.get?_insert, hother planned List.mem_cons_self]
      rfl
    | error error => rfl

namespace PeriodEntry

/-- What the formulas of a period read for a name, whenever the turn of one of them comes. -/
def Reads (plan : Plan) (entry : PeriodEntry) (name : FieldName) (operand : Operand) : Prop :=
  ∀ steps, steps <+: plan.steps.filter (Outcome.isPlannedIn plan entry.period) →
    Outcome.source (entry.view plan)
      (steps.foldl (Outcome.add plan entry.period (entry.view plan)) {}).computed name = operand

variable {activity : Activity} {entry : PeriodEntry} {field : Field}

/-- Formulas read a field that the user fills in as its valid text. -/
theorem reads_entered (settings : Settings) (hnames : activity.NamesDistinct)
    (hactive : field ∈ activity.activeFields) (hentered : field.isCalculated = false)
    (entry : PeriodEntry) :
    entry.Reads (.ofActivity settings activity) field.name
      ((field.validText? entry).elim .missing .ofRaw) := by
  intro steps hevaluated
  have hnone : (steps.foldl (Outcome.add (.ofActivity settings activity) entry.period
      (entry.view (.ofActivity settings activity))) {}).computed.get? field.name = none := by
    refine (Outcome.get?_computed_foldl_add (fun planned hplanned => ?_) {}).trans rfl
    -- the steps are those of calculated fields, whose names are others
    obtain ⟨other, hother, hname⟩ := Activity.exists_of_mem_steps hnames
      (List.mem_filter.1 (hevaluated.subset hplanned)).1
    obtain ⟨hother, hcalculated⟩ := Activity.mem_activeFields hother
    rw [hname, Bool.eq_false_iff]
    intro hsame
    rw [hnames.eq_of_same hother hactive hsame, hentered] at hcalculated
    cases hcalculated
  rw [Outcome.source, hnone, Activity.get?_raw_view_of_entered hnames entry hactive hentered]
  cases field.validText? entry <;> rfl

/-- The cell of a field that the user fills in shows what is wrong with its text. -/
theorem error_cell_entered (settings : Settings) (hnames : activity.NamesDistinct)
    (hactive : field ∈ activity.activeFields) (hentered : field.isCalculated = false)
    (hvisible : field.isVisibleIn entry.period = true) :
    ∃ cell, (entry.row (.ofActivity settings activity)).cells.filter (·.field.same field.name) =
        [cell] ∧ cell.error = (field.textError? entry).map .invalid := by
  let shown : ComputedPeriod := ⟨entry.period, entry.view (.ofActivity settings activity),
    entry.outcome (.ofActivity settings activity), entry⟩
  refine ⟨_, ComputedPeriod.filter_cells hnames shown hactive hvisible, ?_⟩
  change shown.error? field = _
  rw [ComputedPeriod.error?, hentered,
    Activity.get?_invalid_view_of_entered hnames entry hactive hentered]
  rfl

/-- **A carried number is received where its field takes it, and reported where it does not.** -/
theorem received {settings : Settings} (hnames : activity.NamesDistinct)
    (hmark : isMark settings.numberFormat.separator = true)
    (hactive : field ∈ activity.activeFields) (hentered : field.isCalculated = false)
    (hnumeric : field.dataType.isNumeric = true)
    (hvisible : field.isVisibleIn entry.period = true) {value : Decimal}
    (hraw : entry.raw? field.name = some (settings.numberFormat.formatPlain value)) :
    ∃ cell, (entry.row (.ofActivity settings activity)).cells.filter (·.field.same field.name) =
        [cell] ∧
      (field.Takes (settings.numberFormat.round value).value →
        cell.error = none ∧ ∃ number,
          entry.Reads (.ofActivity settings activity) field.name (.number number) ∧
            number.value = (settings.numberFormat.round value).value) ∧
      (¬ field.Takes (settings.numberFormat.round value).value →
        cell.error = some (.invalid (.notAnInteger (settings.numberFormat.formatPlain value))) ∧
          entry.Reads (.ofActivity settings activity) field.name .missing) := by
  obtain ⟨cell, hcell, herror⟩ :=
    error_cell_entered settings hnames hactive hentered hvisible
  have hreads := reads_entered settings hnames hactive hentered entry
  have htext : PeriodView.textOf? (some entry) field =
      some (settings.numberFormat.formatPlain value) := by
    rw [PeriodView.textOf?, Option.bind_some, hraw]
    rfl
  rw [Field.textError?, htext, Option.bind_some] at herror
  refine ⟨cell, hcell, fun htakes => ?_, fun htakes => ?_⟩
  · obtain ⟨typed, htyped⟩ := Value.exists_parse_formatPlain hmark hnumeric htakes
    have hvalid : field.validText? entry = some (settings.numberFormat.formatPlain value) := by
      rw [Field.validText?, htext, Option.filter_some, htyped]
      rfl
    -- formulas read the text as it was carried
    have hoperand : Operand.ofRaw (settings.numberFormat.formatPlain value) =
        .number (settings.numberFormat.round value).normalize := by
      rw [Operand.ofRaw, (settings.numberFormat.isTrimmed_formatPlain value).1,
        NumberFormat.ofEntered?_formatPlain hmark]
      rfl
    rw [hvalid, Option.elim_some, hoperand] at hreads
    rw [htyped] at herror
    exact ⟨herror, _, hreads, (settings.numberFormat.round value).value_normalize⟩
  · have hparse := Value.parse_formatPlain_of_not_takes hmark hnumeric htakes
    have hvalid : field.validText? entry = none := by
      rw [Field.validText?, htext, Option.filter_some, hparse]
      rfl
    rw [hvalid, Option.elim_none] at hreads
    rw [hparse] at herror
    exact ⟨herror, hreads⟩

end PeriodEntry

/-! ### What a computation carries -/

/-- The field that a rule of a savable activity carries into is numeric, and filled in by the
user. -/
theorem Activity.destination_of_savable {activity : Activity} (h : activity.savable = true)
    {rule : CarryRule} (hrule : rule ∈ activity.carryRules) {field : Field}
    (hactive : field ∈ activity.activeFields) (hsame : field.name.same rule.destination = true) :
    field.isCalculated = false ∧ field.dataType.isNumeric = true := by
  obtain ⟨-, destination, -, hfound, -, hentered, hnumeric⟩ := carry_of_savable h hrule
  rw [field?, Field.find?_of_mem (pairwise_of_savable h) (mem_activeFields_iff.1 hactive).1 hsame,
    Option.some.injEq] at hfound
  subst hfound
  exact ⟨hentered, hnumeric⟩

namespace Computation

theorem row?_ofRecord {plan : Plan} {record : Record} (hsorted : record.Sorted)
    {range : PeriodRange} {period : Nat}
    (hperiod : period ∈ range.periods plan.activity.periodCount) :
    (ofRecord plan record range).sheet.row? period =
      some (((ofRecord plan record range).record.opened period).row plan) := by
  have hfind : (range.periods plan.activity.periodCount).find? (· == period) = some period := by
    refine List.find?_range'_eq_some.2 ⟨beq_self_eq_true period, hperiod, fun earlier _ hlt => ?_⟩
    rw [Bool.not_eq_true', beq_eq_false_iff_ne]
    omega
  have hrows : (· == period) ∘ (fun row : Row => row.period) ∘
      (fun source => ((ofRecord plan record range).record.opened source).row plan) =
        (· == period) :=
    funext fun source => congrArg (· == period) (Record.period_opened _ source)
  rw [Sheet.row?, sheet_ofRecord plan hsorted range, Sheet.ofRows, List.find?_map]
  exact congrArg (Option.map _) ((congrArg (List.find? · _) hrows).trans hfind)

/-- **What is carried is what is received**, where the destination takes the number.  The last event
for a field into a period that is computed, and that shows the field, has carried a number: what the
origin of an active rule held in the period before.  If the field takes this number, rounded as
numbers are written, then its cell has no error, and it is the number that the formulas of the
period read for the field.  Otherwise the cell names the text that is not a whole number, and the
formulas read nothing. -/
theorem ofRecord_received (activity : Activity) (settings : Settings)
    (hsavable : activity.savable = true)
    (hmark : settings.numberFormat.separator = ',' ∨ settings.numberFormat.separator = '.')
    (record : Record) (hsorted : record.Sorted) (range : PeriodRange) (event : CarryEvent)
    (text : String) (hvalue : event.value = some text)
    (htarget : event.target ∈ range.periods activity.periodCount) (field : Field)
    (hfield : field ∈ activity.activeFields) (hsame : field.name.same event.field = true)
    (hvisible : field.isVisibleIn event.target = true)
    (hlast : ((ofRecord (.ofActivity settings activity) record range).carried.filter fun other =>
      other.target == event.target && other.field.same event.field).getLast? = some event) :
    let plan := Plan.ofActivity settings activity
    let computed := ofRecord plan record range
    let source := computed.record.opened event.source
    let target := computed.record.opened event.target
    event.target = event.source + 1 ∧
    ∃ rule ∈ activity.carryRules, rule.isActive = true ∧ event.rule = rule.id ∧
      event.field = rule.destination ∧
    ∃ value row cell,
      CarryOrigin.ofName (source.view plan) (source.outcome plan) rule.origin = .number value ∧
      computed.sheet.row? event.target = some row ∧
      row.cells.filter (·.field.same field.name) = [cell] ∧
      (field.Takes (settings.numberFormat.round value).value →
        cell.error = none ∧ ∃ number, target.Reads plan field.name (.number number) ∧
          number.value = (settings.numberFormat.round value).value) ∧
      (¬ field.Takes (settings.numberFormat.round value).value →
        cell.error = some (.invalid (.notAnInteger text)) ∧
          target.Reads plan field.name .missing) := by
  intro plan computed source target
  have hnames := Activity.namesDistinct_of_savable hsavable
  obtain ⟨hmem, -⟩ := List.mem_filter.1 (List.mem_of_getLast? hlast)
  obtain ⟨-, -, hnext, hevent⟩ := mem_carried_ofRecord hsorted hmem
  obtain ⟨-, -, rule, hrule, hreports⟩ := Carrying.exists_rule_of_mem_events hevent
  obtain ⟨hrule, hactive⟩ := List.mem_filter.1 hrule
  -- the rule has written a number into a field that the user fills in
  have hwritten := hreports.value
  rw [hvalue] at hwritten
  obtain ⟨value, horigin, rfl⟩ := Carrying.value?_action_eq_some hwritten
  obtain ⟨hentered, hnumeric⟩ :=
    Activity.destination_of_savable hsavable hrule hfield (hreports.field ▸ hsame)
  -- and there it still is
  have hraw : target.raw? field.name = some (settings.numberFormat.formatPlain value) := by
    rw [PeriodEntry.raw?_eq_shown, PeriodEntry.slot_congr target hsame,
      slot_of_getLast?_carried hsorted hlast, hvalue, Slot.shown]
    have hshown := (settings.numberFormat.isTrimmed_formatPlain value).1
    exact Option.filter_some_pos (congrArg not hshown)
  have hmark' : isMark settings.numberFormat.separator = true := isMark_iff.2 hmark
  have hperiod : target.period = event.target := Record.period_opened _ event.target
  rw [← hperiod] at hvisible
  obtain ⟨cell, hcell, hreceived⟩ :=
    PeriodEntry.received hnames hmark' hfield hentered hnumeric hvisible hraw
  exact ⟨hnext, rule, hrule, hactive, hreports.id, hreports.field, value, _, cell, horigin,
    row?_ofRecord hsorted htarget, hcell, hreceived⟩

/-- A credit is received by the second half-year, in a decimal field. -/
theorem ofRecord_received_credits :
    let activity := Credits.activity [Credits.creditRule]
    let field := Field.entered Credits.previous .decimal
    let event : CarryEvent := ⟨1, 1, 2, Credits.previous, some "300"⟩
    let computed := ofRecord (.ofActivity {} activity) (Credits.record "300" .empty .empty) .all
    activity.savable = true ∧ (Credits.record "300" .empty .empty).Sorted ∧
      2 ∈ PeriodRange.all.periods activity.periodCount ∧ field ∈ activity.activeFields ∧
      field.name.same event.field = true ∧ field.isVisibleIn 2 = true ∧
      (computed.carried.filter fun other =>
        other.target == event.target && other.field.same event.field).getLast? = some event ∧
      ∃ row cell, computed.sheet.row? 2 = some row ∧
        row.cells.filter (·.field.same field.name) = [cell] ∧ cell.error = none := by
  intro activity field event computed
  have hsavable : activity.savable = true := by decide +kernel
  have hsorted : (Credits.record "300" .empty .empty).Sorted := by decide
  have hperiod : 2 ∈ PeriodRange.all.periods activity.periodCount := by decide
  have hfield : field ∈ activity.activeFields := by
    rw [Credits.activeFields_eq]
    decide +kernel
  have hsame : field.name.same event.field = true := rfl
  have hlast : (computed.carried.filter fun other =>
      other.target == event.target && other.field.same event.field).getLast? = some event := by
    have hplan : Plan.ofActivity {} activity = Credits.plan [Credits.creditRule] :=
      Credits.plan_eq _
    simp only [computed, hplan]
    decide +kernel
  obtain ⟨-, _, -, -, -, -, _, row, cell, -, hrow, hcell, htakes, -⟩ :=
    ofRecord_received activity {} hsavable (.inl rfl) _ hsorted .all event "300" rfl hperiod field
      hfield hsame rfl hlast
  exact ⟨hsavable, hsorted, hperiod, hfield, hsame, rfl, hlast, row, cell, hrow, hcell,
    (htakes (.inl rfl)).1⟩

end Computation

/-! ### Whole credits -/

namespace Credits

def wholeFields : List Field :=
  [ .calculated credit "[Paid] - [Due] + [Previous]",
    .entered due .decimal,
    .entered paid .decimal,
    .entered previous .number ]

/-- The activity with these fields, in which a positive credit moves on. -/
def wholeActivity : Activity :=
  .periodic 1 "Credits"
    { name := "Half-years"
      periodCount := 2
      labels := ["H1", "H2"]
      fields := wholeFields
      carryRules := [creditRule] }

theorem activeFields_wholeActivity : wholeActivity.activeFields = wholeFields := by
  have hordered : (wholeFields.filter (·.isActive)).Pairwise
      (fun a b => a.displaysBefore b = true) := by
    decide +kernel
  exact Activity.activeFields_of_ordered hordered

/-- The plan of that activity, in a form that can be evaluated. -/
def wholePlan : Plan :=
  let calculated := ReadField.ofFields ({} : Settings).maxFormulaLength wholeFields
  { activity := wholeActivity
    settings := {}
    fields := wholeFields
    graph := ReadField.graph calculated
    steps := Plan.stepsOf calculated (ReadField.graph calculated) }

theorem wholePlan_eq : Plan.ofActivity {} wholeActivity = wholePlan := by
  unfold Plan.ofActivity
  rw [activeFields_wholeActivity]
  rfl

end Credits

/-- **Not everything that is carried is received.**  A credit with a fraction is carried into a
field for whole numbers, where it is an invalid text, and where formulas read nothing. -/
theorem Computation.ofRecord_not_received_credits :
    let activity := Credits.wholeActivity
    let plan := Plan.ofActivity {} activity
    let entered := Credits.record "12,5" .empty .empty
    let field := Field.entered Credits.previous .number
    let event : CarryEvent := ⟨1, 1, 2, Credits.previous, some "12,5"⟩
    let computed := ofRecord plan entered .all
    let target := computed.record.opened 2
    activity.savable = true ∧ entered.Sorted ∧
      2 ∈ PeriodRange.all.periods activity.periodCount ∧ field ∈ activity.activeFields ∧
      field.isVisibleIn 2 = true ∧
      (computed.carried.filter fun other =>
        other.target == event.target && other.field.same event.field).getLast? = some event ∧
      ((computed.sheet.row? 2).bind (·.cell? Credits.previous)).map (·.error) =
        some (some (.invalid (.notAnInteger "12,5"))) ∧
      Outcome.source (target.view plan) (target.outcome plan).computed Credits.previous =
        .missing := by
  intro activity plan entered field event computed target
  have hplan : plan = Credits.wholePlan := Credits.wholePlan_eq
  have hfield : field ∈ activity.activeFields := by
    rw [Credits.activeFields_wholeActivity]
    decide +kernel
  refine ⟨by decide +kernel, by decide, by decide, hfield, rfl, ?_, ?_, ?_⟩
  · simp only [computed, hplan]
    decide +kernel
  · simp only [computed, hplan]
    decide +kernel
  · simp only [target, computed, hplan]
    decide +kernel

end PeriodSheet
