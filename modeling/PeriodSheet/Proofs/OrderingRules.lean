import PeriodSheet.Proofs.ColourRules
import PeriodSheet.Proofs.DerivedValues
import PeriodSheet.Proofs.NumberFormat
import PeriodSheet.Proofs.Soundness

/-!
# Ordering rules

A colour rule with an ordering does not match where one of the texts is not a number.  In a savable
activity a rule that names a field never comes to that: whatever text it is tested on, in whatever
record, is a number, and so is its own (`Computation.ofRecord_ordering`).

* The tests that are made where a row is built are listed (`ComputedPeriod.tests`), and the styles
  depend on nothing else of what the rules compare (`ComputedPeriod.styles_comparing`).
* The rows of a run are those of the periods that it builds them from, in turn
  (`Computing.rows_foldl`).
* What counts as the value of a calculated or numeric field is a number
  (`ComputedPeriod.exists_ofEntered?_effective`): a text that was entered was parsed as one, and a
  text that was computed was written from one.
-/

namespace PeriodSheet

open Decimal

/-! ### Tests -/

/-- A colour rule with a text that it is tested on. -/
structure ColourTest where
  rule : ColourRule
  value : String
deriving DecidableEq

namespace ColourRule

/-- The tests that the style of a cell asks for: of each active rule for cells of the field. -/
def cellTests (rules : List ColourRule) (field : FieldName) (value : String) : List ColourTest :=
  (rules.filter fun rule =>
    rule.isActive && rule.scope == .field && rule.field.any (·.same field)).map (⟨·, value⟩)

/-- The tests that the style of a row asks for: of each active rule for rows, on the value of the
field that it names, or on every value where it names none. -/
def rowTests (rules : List ColourRule) (row : NameMap String) : List ColourTest :=
  (rules.filter fun rule => rule.isActive && rule.scope == .row).flatMap fun rule =>
    match rule.field with
    | some field => (row.get? field).toList.map (⟨rule, ·⟩)
    | none => row.toList.map fun e => ⟨rule, e.2⟩

/-- The rule with what it compares replaced. -/
def comparing (comparison : ColourRule → Comparison) (value : ColourRule → String)
    (rule : ColourRule) : ColourRule :=
  { rule with comparison := comparison rule, value := value rule }

section Comparing

variable (comparison : ColourRule → Comparison) (value : ColourRule → String)
  (rules : List ColourRule)

theorem winner?_comparing :
    winner? (rules.map (comparing comparison value)) =
      (winner? rules).map (comparing comparison value) := by
  cases rules with
  | nil => rfl
  | cons rule rest =>
    rw [List.map_cons, winner?, winner?, Option.map_some, List.foldl_map]
    refine congrArg some (List.foldl_hom (comparing comparison value) fun best next => ?_)
    rw [apply_ite (comparing comparison value)]
    rfl

/-- The deciding style does not depend on what the rules compare, but on which of them apply. -/
theorem styleOf_comparing {applies : ColourRule → Bool}
    (h : ∀ rule ∈ rules, applies (rule.comparing comparison value) = applies rule) :
    styleOf ((rules.map (comparing comparison value)).filter applies) =
      styleOf (rules.filter applies) := by
  have hfilter : (rules.map (comparing comparison value)).filter applies =
      (rules.filter applies).map (comparing comparison value) := by
    rw [List.filter_map]
    exact congrArg (List.map _) (List.filter_congr h)
  rw [styleOf, styleOf, hfilter, winner?_comparing]
  cases winner? (rules.filter applies) <;> rfl

variable {comparison value rules}

/-- A cell's style depends on the tests that are made for it. -/
theorem cellStyle_comparing {field : FieldName} {text : String}
    (h : ∀ test ∈ cellTests rules field text,
      (test.rule.comparing comparison value).isMatch test.value = test.rule.isMatch test.value) :
    cellStyle (rules.map (comparing comparison value)) field text = cellStyle rules field text := by
  refine styleOf_comparing comparison value rules fun rule hrule => ?_
  by_cases htested :
      (rule.isActive && rule.scope == .field && rule.field.any (·.same field)) = true
  · have hmem : (⟨rule, text⟩ : ColourTest) ∈ cellTests rules field text :=
      List.mem_map_of_mem (List.mem_filter.2 ⟨hrule, htested⟩)
    exact congrArg (_ && ·) (h _ hmem)
  · rw [Bool.not_eq_true] at htested
    simp only [appliesToCell, comparing, htested, Bool.false_and]

/-- Whether a rule matches a row depends on the values that it is tested on. -/
theorem isRowMatch_comparing {rule : ColourRule} {row : NameMap String}
    (hnamed : ∀ field ∈ rule.field, ∀ text ∈ row.get? field,
      (rule.comparing comparison value).isMatch text = rule.isMatch text)
    (hunnamed : rule.field = none → ∀ e ∈ row.toList,
      (rule.comparing comparison value).isMatch e.2 = rule.isMatch e.2) :
    (rule.comparing comparison value).isRowMatch row = rule.isRowMatch row := by
  have hfield : (rule.comparing comparison value).field = rule.field := rfl
  rw [isRowMatch, isRowMatch, hfield]
  cases hrule : rule.field with
  | some field =>
    cases htext : row.get? field with
    | none => simp only [htext, Option.any_none]
    | some text => simp only [htext, Option.any_some, hnamed field hrule text htext]
  | none =>
    rw [Bool.eq_iff_iff, List.any_eq_true, List.any_eq_true]
    exact exists_congr fun e => and_congr_right fun he => by rw [hunnamed hrule e he]

theorem rowStyle_comparing {row : NameMap String}
    (h : ∀ test ∈ rowTests rules row,
      (test.rule.comparing comparison value).isMatch test.value = test.rule.isMatch test.value) :
    rowStyle (rules.map (comparing comparison value)) row = rowStyle rules row := by
  refine styleOf_comparing comparison value rules fun rule hrule => ?_
  by_cases htested : (rule.isActive && rule.scope == .row) = true
  · have hmem : rule ∈ rules.filter fun rule => rule.isActive && rule.scope == .row :=
      List.mem_filter.2 ⟨hrule, htested⟩
    have hmatch : (rule.comparing comparison value).isRowMatch row = rule.isRowMatch row := by
      refine isRowMatch_comparing (fun field hfield text htext => ?_) fun hfield e he => ?_
      · refine h ⟨rule, text⟩ (List.mem_flatMap.2 ⟨rule, hmem, ?_⟩)
        replace hfield : rule.field = some field := hfield
        replace htext : row.get? field = some text := htext
        simp [hfield, htext]
      · refine h ⟨rule, e.2⟩ (List.mem_flatMap.2 ⟨rule, hmem, ?_⟩)
        rw [hfield]
        exact List.mem_map_of_mem he
    exact congrArg (_ && ·) hmatch
  · rw [Bool.not_eq_true] at htested
    simp only [appliesToRow, comparing, htested, Bool.false_and]

end Comparing

end ColourRule

namespace ComputedPeriod

/-- The tests that the style of a field's cell asks for; there are none without a value, or with an
error. -/
def cellTests (rules : List ColourRule) (computed : ComputedPeriod) (field : Field) :
    List ColourTest :=
  match computed.effective? field, computed.error? field with
  | some value, none => ColourRule.cellTests rules field.name value
  | _, _ => []

/-- The fields that the row of a period shows. -/
def shownFields (plan : Plan) (computed : ComputedPeriod) : List Field :=
  plan.fields.filter (·.isVisibleIn computed.period)

/-- The tests that are made where the row of a period is built. -/
def tests (plan : Plan) (computed : ComputedPeriod) : List ColourTest :=
  let rules := plan.activity.colourRules
  let fields := computed.shownFields plan
  fields.flatMap (computed.cellTests rules) ++ ColourRule.rowTests rules (computed.values fields)

/-- **The tests are all that counts of what the rules compare.**  Where other comparisons come to
the same in each test, the cells and the row have the same style. -/
theorem styles_comparing (plan : Plan) (computed : ComputedPeriod)
    (comparison : ColourRule → Comparison) (value : ColourRule → String)
    (h : ∀ test ∈ computed.tests plan,
      (test.rule.comparing comparison value).isMatch test.value = test.rule.isMatch test.value) :
    let rules := plan.activity.colourRules
    let others := rules.map (ColourRule.comparing comparison value)
    let fields := computed.shownFields plan
    (∀ field ∈ fields, computed.cell others field = computed.cell rules field) ∧
      ColourRule.rowStyle others (computed.values fields) =
        ColourRule.rowStyle rules (computed.values fields) := by
  intro rules others fields
  refine ⟨fun field hfield => ?_, ColourRule.rowStyle_comparing fun test htest =>
    h test (List.mem_append_right _ htest)⟩
  have htests : ∀ test ∈ computed.cellTests rules field, test ∈ computed.tests plan :=
    fun test htest => List.mem_append_left _ (List.mem_flatMap.2 ⟨field, hfield, htest⟩)
  have hstyle : computed.cellStyle others field = computed.cellStyle rules field := by
    unfold cellStyle
    unfold cellTests at htests
    split
    · next text hvalue herror =>
      rw [hvalue, herror] at htests
      exact ColourRule.cellStyle_comparing fun test htest => h test (htests test htest)
    · rfl
  simp only [cell, hstyle]

end ComputedPeriod

/-! ### The periods of a run -/

/-- What is known of a period of a record where its row is built. -/
def ComputedPeriod.ofRecord (plan : Plan) (record : Record) (period : Nat) : ComputedPeriod :=
  let view := PeriodView.ofFields plan.fields (record.entry? period)
  let outcome := Outcome.ofView plan period view
  { period, view, outcome
    entry :=
      { record.opened period with computed := outcome.texts plan.settings.numberFormat } }

namespace Computing

/-- What a run over some periods builds its rows from. -/
def built (plan : Plan) : List Nat → Computing → List ComputedPeriod
  | [], _ => []
  | period :: rest, computing =>
    .ofRecord plan computing.record period :: built plan rest (computing.step plan period)

theorem rows_step (plan : Plan) (computing : Computing) (period : Nat) :
    (computing.step plan period).rows =
      computing.rows ++ [(ComputedPeriod.ofRecord plan computing.record period).row plan] := by
  rw [step, rows_carryOver]
  rfl

/-- A run adds the rows of what it builds. -/
theorem rows_foldl (plan : Plan) (periods : List Nat) (computing : Computing) :
    (periods.foldl (step plan) computing).rows =
      computing.rows ++ (built plan periods computing).map (ComputedPeriod.row plan) := by
  induction periods generalizing computing with
  | nil => exact (List.append_nil _).symm
  | cons period rest ih =>
    rw [List.foldl_cons, ih, rows_step, built, List.map_cons, List.append_assoc]
    rfl

theorem exists_record_of_mem_built {plan : Plan} {periods : List Nat} {computing : Computing}
    {computed : ComputedPeriod} (h : computed ∈ built plan periods computing) :
    ∃ record period, computed = .ofRecord plan record period := by
  induction periods generalizing computing with
  | nil => cases h
  | cons period rest ih =>
    rcases List.mem_cons.1 h with rfl | h
    · exact ⟨computing.record, period, rfl⟩
    · exact ih h

end Computing

/-! ### What is tested -/

/-- What a map of listed values has for a name stands in the list. -/
theorem NameMap.exists_mem_of_get?_ofList {α : Type} {entries : List (FieldName × α)}
    {name : FieldName} {value : α} (h : (ofList entries).get? name = some value) :
    ∃ e ∈ entries, e.1.same name = true ∧ e.2 = value := by
  induction entries using List.reverseRecOn with
  | nil => cases h
  | append_singleton rest last ih =>
    rw [ofList, List.foldl_append, List.foldl_cons, List.foldl_nil, get?_insert] at h
    split at h
    · next hsame =>
      exact ⟨last, List.mem_append_right _ (List.mem_singleton_self _), hsame, Option.some.inj h⟩
    · obtain ⟨e, he, hfound⟩ := ih h
      exact ⟨e, List.mem_append_left _ he, hfound⟩

namespace ComputedPeriod

variable {plan : Plan} {computed : ComputedPeriod}

theorem exists_field_of_get?_values {fields : List Field} {name : FieldName} {text : String}
    (h : (computed.values fields).get? name = some text) :
    ∃ field ∈ fields, field.name.same name = true ∧ computed.effective? field = some text := by
  obtain ⟨e, he, hsame, rfl⟩ := NameMap.exists_mem_of_get?_ofList h
  obtain ⟨field, hfield, hvalue⟩ := List.mem_filterMap.1 he
  obtain ⟨text, htext, rfl⟩ := Option.map_eq_some_iff.1 hvalue
  exact ⟨field, hfield, hsame, htext⟩

/-- A rule that names a field is one of the activity's, and is tested on what counts as the value
of the field. -/
theorem exists_field_of_mem_tests {test : ColourTest} (h : test ∈ computed.tests plan)
    {name : FieldName} (hname : test.rule.field = some name) :
    test.rule ∈ plan.activity.colourRules ∧ ∃ field ∈ plan.fields,
      field.name.same name = true ∧ computed.effective? field = some test.value := by
  have hshown : ∀ field ∈ computed.shownFields plan, field ∈ plan.fields :=
    fun field hfield => (List.mem_filter.1 hfield).1
  rcases List.mem_append.1 h with h | h
  · obtain ⟨field, hfield, htest⟩ := List.mem_flatMap.1 h
    unfold cellTests at htest
    split at htest
    · next text hvalue herror =>
      obtain ⟨rule, hrule, rfl⟩ := List.mem_map.1 htest
      obtain ⟨hrule, happlies⟩ := List.mem_filter.1 hrule
      rw [Bool.and_eq_true, show rule.field = some name from hname, Option.any_some,
        FieldName.same_comm] at happlies
      exact ⟨hrule, field, hshown field hfield, happlies.2, hvalue⟩
    · cases htest
  · obtain ⟨rule, hrule, htest⟩ := List.mem_flatMap.1 h
    have hrules := (List.mem_filter.1 hrule).1
    split at htest
    · next target htarget =>
      obtain ⟨text, htext, rfl⟩ := List.mem_map.1 htest
      obtain rfl : target = name := Option.some.inj (htarget.symm.trans hname)
      obtain ⟨field, hfield, hsame, hvalue⟩ :=
        exists_field_of_get?_values (Option.mem_toList.1 htext)
      exact ⟨hrules, field, hshown field hfield, hsame, hvalue⟩
    · next hnone =>
      obtain ⟨e, -, rfl⟩ := List.mem_map.1 htest
      rw [show rule.field = some name from hname] at hnone
      cases hnone

end ComputedPeriod

/-! ### Numbers -/

section Numbers

variable {settings : Settings} {activity : Activity}

/-- **What counts as the value of a calculated or numeric field is a number.** -/
theorem ComputedPeriod.exists_ofEntered?_effective (hnames : activity.NamesDistinct)
    (hmark : isMark settings.numberFormat.separator = true) {field : Field}
    (hfield : field ∈ activity.activeFields)
    (hnumeric : field.isCalculated = true ∨ field.dataType.isNumeric = true) {record : Record}
    {period : Nat} {text : String}
    (h : (ComputedPeriod.ofRecord (.ofActivity settings activity) record period).effective? field =
      some text) : ∃ number, ofEntered? text = some number := by
  unfold effective? at h
  split at h
  · -- the text was written from a number
    rw [PeriodEntry.computed?, ofRecord, Outcome.texts, NameMap.get?_map] at h
    obtain ⟨value, -, rfl⟩ := Option.map_eq_some_iff.1 h
    obtain ⟨number, -, hread, -⟩ := NumberFormat.exists_ofEntered?_format hmark value
    exact ⟨number, hread⟩
  · next hentered =>
    -- the text was parsed as one
    obtain ⟨entry, -, hview⟩ := record.exists_entry_view (.ofActivity settings activity) period
    rw [ofRecord, hview, Activity.get?_raw_view_of_entered hnames entry hfield
      (Bool.eq_false_of_not_eq_true hentered)] at h
    exact (Field.accepts_of_validText? h).exists_ofEntered? (hnumeric.resolve_left hentered)

end Numbers

namespace ColourTest

/-- Whether the rule and the text are compared as numbers. -/
def IsNumeric (test : ColourTest) : Prop :=
  ∃ left right, ofEntered? test.value = some left ∧ ofEntered? test.rule.value = some right ∧
    test.rule.isMatch test.value = test.rule.comparison.accepts (left.compare right)

theorem isNumeric_of_ofEntered? {test : ColourTest} {left right : Decimal}
    (hvalue : ofEntered? test.value = some left)
    (hrule : ofEntered? test.rule.value = some right) : test.IsNumeric := by
  refine ⟨left, right, hvalue, hrule, ?_⟩
  simp only [ColourRule.isMatch, Comparison.holds, hvalue, hrule]

end ColourTest

/-- In a period of a savable activity, a rule with an ordering that names a field compares
numbers. -/
theorem ComputedPeriod.isNumeric_of_mem_tests {settings : Settings} {activity : Activity}
    (hsavable : activity.savable = true) (hmark : isMark settings.numberFormat.separator = true)
    {record : Record} {period : Nat} {test : ColourTest}
    (htest : test ∈ (ComputedPeriod.ofRecord (.ofActivity settings activity) record period).tests
      (.ofActivity settings activity))
    (hordering : test.rule.comparison.isOrdering = true)
    (hnamed : test.rule.field.isSome = true) : test.IsNumeric := by
  obtain ⟨name, hname⟩ := Option.isSome_iff_exists.1 hnamed
  obtain ⟨hrule, field, hfield, hsame, hvalue⟩ := exists_field_of_mem_tests htest hname
  replace hfield : field ∈ activity.activeFields := hfield
  obtain ⟨⟨right, hright⟩, htarget⟩ := Activity.ordering_of_savable hsavable hrule hordering
  obtain ⟨target, hfound, hnumeric⟩ := htarget name hname
  -- the field that the check saw is the one that is shown
  have hfind := Field.find?_of_mem (Activity.pairwise_of_savable hsavable)
    (Activity.mem_activeFields_iff.1 hfield).1 hsame
  obtain rfl : target = field := Option.some.inj (hfound.symm.trans hfind)
  obtain ⟨left, hleft⟩ := exists_ofEntered?_effective
    (Activity.namesDistinct_of_savable hsavable) hmark hfield hnumeric hvalue
  exact ColourTest.isNumeric_of_ofEntered? hleft hright

namespace Computation

/-- What the rows of a computation are built from. -/
def built (plan : Plan) (record : Record) (range : PeriodRange) : List ComputedPeriod :=
  Computing.built plan (range.periods plan.activity.periodCount)
    { record, notices := foreignNotice plan record }

theorem rows_ofRecord (plan : Plan) (record : Record) (range : PeriodRange) :
    (ofRecord plan record range).sheet.rows =
      (built plan record range).map (ComputedPeriod.row plan) :=
  Computing.rows_foldl plan _ _

/-- **Ordering rules compare numbers.**  With a comma or a point for the decimal mark, whatever the
record of a savable activity holds: the rows are built from periods in each of which a rule with an
ordering that names a field is tested on a number, and against one. -/
theorem ofRecord_ordering (activity : Activity) (settings : Settings)
    (hsavable : activity.savable = true)
    (hseparator : settings.numberFormat.separator = ',' ∨ settings.numberFormat.separator = '.')
    (record : Record) (range : PeriodRange) :
    let plan := Plan.ofActivity settings activity
    (ofRecord plan record range).sheet.rows =
        (built plan record range).map (ComputedPeriod.row plan) ∧
      ∀ computed ∈ built plan record range, ∀ test ∈ computed.tests plan,
        test.rule.comparison.isOrdering = true → test.rule.field.isSome = true →
          test.IsNumeric := by
  intro plan
  refine ⟨rows_ofRecord plan record range, fun computed hcomputed test htest => ?_⟩
  obtain ⟨before, period, rfl⟩ := Computing.exists_record_of_mem_built hcomputed
  exact ComputedPeriod.isNumeric_of_mem_tests hsavable (isMark_iff.2 hseparator) htest

end Computation

/-- The plan of coloured credits, in a form that can be evaluated. -/
theorem Credits.plan_coloured :
    Plan.ofActivity {} coloured = { plan [creditRule] with activity := coloured } := by
  have hfields : coloured.activeFields = fields := activeFields_eq [creditRule]
  unfold Plan.ofActivity
  rw [hfields]
  rfl

/-- In both half-years the credit is compared with zero, and in the first one the payment with what
makes it a large one. -/
theorem Computation.ofRecord_ordering_credits :
    let plan := Plan.ofActivity {} Credits.coloured
    let entered := Credits.record "300" .empty .empty
    let negative : ColourTest := ⟨Credits.negativeCredit, "300,00"⟩
    let large : ColourTest := ⟨Credits.largePayment, "300"⟩
    Credits.coloured.savable = true ∧ (built plan entered .all).map (·.tests plan) =
        [[negative, large], [negative]] ∧
      ∀ computed ∈ built plan entered .all, ∀ test ∈ computed.tests plan, test.IsNumeric := by
  intro plan entered negative large
  have htests : (built plan entered .all).map (·.tests plan) =
      [[negative, large], [negative]] := by
    simp only [plan, Credits.plan_coloured]
    decide +kernel
  refine ⟨Credits.savable_coloured, htests, fun computed hcomputed test htest => ?_⟩
  obtain ⟨-, hnumeric⟩ := ofRecord_ordering Credits.coloured {} Credits.savable_coloured (.inl rfl)
    entered .all
  have hmem : computed.tests plan ∈ [[negative, large], [negative]] :=
    htests ▸ List.mem_map_of_mem hcomputed
  have hcases : test ∈ [negative, large] := by
    rcases List.mem_pair.1 hmem with hlist | hlist
    · exact hlist ▸ htest
    · rw [hlist, List.mem_singleton] at htest
      exact htest ▸ List.mem_cons_self
  rcases List.mem_pair.1 hcases with rfl | rfl
  · exact hnumeric computed hcomputed _ htest rfl rfl
  · exact hnumeric computed hcomputed _ htest rfl rfl

end PeriodSheet
