import PeriodSheet.Proofs.Plan
import PeriodSheet.Proofs.Recompute
import PeriodSheet.Proofs.View

/-!
# What a period is evaluated to

Evaluating the steps of a plan one after the other gives each calculated field what it means
(`Activity.Means`), where the names of the active fields are distinct.  By induction along the
schedule of the plan: when the turn of a field comes, its dependencies that are shown have what they
mean (`Agrees`), and so the field gets what it means.
-/

namespace PeriodSheet

/-! ### The outcome -/

namespace Outcome

variable {settings : Settings} {activity : Activity}

/-- An outcome holds what a field came to: its rounded value or its error. -/
def Holds (settings : Settings) (outcome : Outcome) (field : Field) :
    Except FormulaError Decimal → Prop
  | .ok value =>
    outcome.computed.get? field.name = some (settings.numberFormat.round value) ∧
      outcome.failures.get? field.name = none
  | .error error =>
    outcome.computed.get? field.name = none ∧ outcome.failures.get? field.name = some error

theorem Holds.congr {outcome other : Outcome} {field : Field}
    {result : Except FormulaError Decimal} (h : outcome.Holds settings field result)
    (hcomputed : other.computed.get? field.name = outcome.computed.get? field.name)
    (hfailures : other.failures.get? field.name = outcome.failures.get? field.name) :
    other.Holds settings field result := by
  cases result with
  | ok value => exact ⟨hcomputed.trans h.1, hfailures.trans h.2⟩
  | error error => exact ⟨hcomputed.trans h.1, hfailures.trans h.2⟩

/-- What a plan evaluates some fields to, one after the other. -/
noncomputable def ofFields (settings : Settings) (activity : Activity) (entry : PeriodEntry)
    (fields : List Field) : Outcome :=
  ((fields.map (activity.planned settings)).filter
    (isPlannedIn (.ofActivity settings activity) entry.period)).foldl
      (add (.ofActivity settings activity) entry.period
        (entry.view (.ofActivity settings activity))) {}

/-- With one more field that is shown, its value or its error is added. -/
theorem ofFields_snoc (hnames : activity.NamesDistinct) (entry : PeriodEntry)
    (fields : List Field) {field : Field} (hfield : field ∈ activity.activeFields) :
    ofFields settings activity entry (fields ++ [field]) =
      if field.isVisibleIn entry.period then
        (ofFields settings activity entry fields).add (.ofActivity settings activity) entry.period
          (entry.view (.ofActivity settings activity)) (activity.planned settings field)
      else ofFields settings activity entry fields := by
  -- the plan finds the field by its name
  have hplanned : isPlannedIn (.ofActivity settings activity) entry.period
      (activity.planned settings field) = field.isVisibleIn entry.period := by
    have hfound : (Plan.ofActivity settings activity).field?
        (activity.planned settings field).name = some field :=
      hnames.find?_of_mem hfield (FieldName.same_refl field.name)
    rw [isPlannedIn, hfound, Option.any_some]
  rw [ofFields, List.map_append, List.filter_append, List.map_singleton, List.filter_singleton,
    hplanned, ofFields, List.foldl_append]
  cases field.isVisibleIn entry.period <;> rfl

/-- What is added is held, and what other names had before stays. -/
theorem holds_add (plan : Plan) (period : Nat) (view : PeriodView) (outcome : Outcome)
    {field : Field} (step : PlanStep) (hcomputed : outcome.computed.get? field.name = none)
    (hfailures : outcome.failures.get? field.name = none) :
    let after := outcome.add plan period view ⟨field.name, step⟩
    after.Holds plan.settings field (valueOf plan view outcome ⟨field.name, step⟩) ∧
      ∀ name, field.name.same name = false →
        after.computed.get? name = outcome.computed.get? name ∧
          after.failures.get? name = outcome.failures.get? name := by
  dsimp only
  unfold add
  cases valueOf plan view outcome ⟨field.name, step⟩ with
  | ok value =>
    refine ⟨⟨?_, hfailures⟩, fun name hname => ⟨?_, rfl⟩⟩
    · rw [NameMap.get?_insert, if_pos (FieldName.same_refl field.name)]
    · rw [NameMap.get?_insert, hname]
      rfl
  | error error =>
    refine ⟨⟨hcomputed, ?_⟩, fun name hname => ⟨rfl, ?_⟩⟩
    · rw [NameMap.get?_insert, if_pos (FieldName.same_refl field.name)]
    · rw [NameMap.get?_insert, hname]
      rfl

/-- An outcome agrees with results for some fields where it holds these results for those of the
fields that are shown, and nothing else, and where the results are what the fields mean. -/
structure Agrees (settings : Settings) (activity : Activity) (entry : PeriodEntry)
    (fields : List Field) (results : Field → Except FormulaError Decimal) (outcome : Outcome) :
    Prop where
  means : ∀ field ∈ fields, field.isVisibleIn entry.period = true →
    activity.Means settings entry.period entry field (results field)
  holds : ∀ field ∈ fields, field.isVisibleIn entry.period = true →
    outcome.Holds settings field (results field)
  only : ∀ name, (∀ field ∈ fields, field.isVisibleIn entry.period = true →
    field.name.same name = false) →
      outcome.computed.get? name = none ∧ outcome.failures.get? name = none

/-- A dependency has failed where it is shown and its result is an error. -/
theorem Agrees.contains_failures {entry : PeriodEntry} {fields : List Field}
    {results : Field → Except FormulaError Decimal} {outcome : Outcome}
    (hnames : activity.NamesDistinct) (h : Agrees settings activity entry fields results outcome)
    (hactive : ∀ field ∈ fields, field ∈ activity.activeFields) {field : Field}
    (hfield : field ∈ fields) :
    outcome.failures.contains field.name =
      (field.isVisibleIn entry.period && !(results field).isOk) := by
  rw [NameMap.contains_eq_isSome]
  cases hvisible : field.isVisibleIn entry.period with
  | true =>
    have hholds := h.holds field hfield hvisible
    cases hresult : results field with
    | ok value =>
      rw [hresult] at hholds
      rw [hholds.2]
      rfl
    | error error =>
      rw [hresult] at hholds
      rw [hholds.2]
      rfl
  | false =>
    -- nothing is held of a field that is not shown
    have hnone := (h.only field.name fun other hother hshown => ?_).2
    · rw [hnone]
      rfl
    · rw [Bool.eq_false_iff]
      intro hsame
      rw [hnames.eq_of_same (hactive other hother) (hactive field hfield) hsame,
        hvisible] at hshown
      cases hshown

theorem Agrees.computed_eq_none {entry : PeriodEntry} {fields : List Field}
    {results : Field → Except FormulaError Decimal} {outcome : Outcome}
    (h : Agrees settings activity entry fields results outcome) {name : FieldName}
    (hnone : ∀ field ∈ fields, field.isVisibleIn entry.period = true →
      ¬ field.name.same name = true) : outcome.computed.get? name = none :=
  (h.only name fun field hmem hvisible => Bool.eq_false_iff.2 (hnone field hmem hvisible)).1

/-- What the fields of a formula stand for is what its meaning says, where its dependencies were
evaluated and none of them failed. -/
theorem Agrees.source_eq (hnames : activity.NamesDistinct) {entry : PeriodEntry}
    {fields : List Field} {results : Field → Except FormulaError Decimal} {outcome : Outcome}
    (h : Agrees settings activity entry fields results outcome)
    (hcalculated : ∀ field ∈ fields, field ∈ activity.calculatedFields) {field : Field}
    {formula : Formula} (hread : field.reading? settings = some (.ok formula))
    (hdependencies : ∀ other ∈ activity.dependencies settings field, other ∈ fields)
    (hclear : activity.firstFailed? settings entry.period results field = none)
    {name : FieldName} (hmem : name ∈ formula.expr.fields) :
    source (entry.view (.ofActivity settings activity)) outcome.computed name =
      activity.source settings entry.period entry results name := by
  have hactive : ∀ field ∈ fields, field ∈ activity.activeFields :=
    fun field hfield => (Activity.mem_activeFields (hcalculated field hfield)).1
  rw [source, Activity.source, Activity.get?_raw_view hnames]
  cases hfind : Field.find? activity.activeFields name with
  | none =>
    -- an unknown name
    have hnone : outcome.computed.get? name = none := by
      refine h.computed_eq_none fun other hother _ hsame => ?_
      rw [hnames.find?_of_mem (hactive other hother) hsame] at hfind
      cases hfind
    rw [hnone]
    rfl
  | some other =>
    have hother := List.mem_of_find?_eq_some hfind
    have hsame := Field.same_of_find? hfind
    have hunique : ∀ found ∈ fields, found.name.same name = true → found = other := by
      intro found hfound hname
      exact hnames.eq_of_same (hactive found hfound) hother
        ((FieldName.same_congr_right hsame found.name).trans hname)
    by_cases hkind : other.isCalculated = true
    · -- a dependency of the field
      have hdependency : other ∈ activity.dependencies settings field := by
        rw [Activity.mem_dependencies hread, Formula.mentions_eq]
        refine ⟨List.mem_filter.2 ⟨hother, hkind⟩, List.any_eq_true.2 ⟨name, hmem, ?_⟩⟩
        exact (FieldName.same_comm name other.name).trans hsame
      simp only [Option.bind_some, hkind, if_true]
      cases hvisible : other.isVisibleIn entry.period with
      | true =>
        have hfine := List.find?_eq_none.1 hclear other hdependency
        have hholds := h.holds other (hdependencies other hdependency) hvisible
        cases hresult : results other with
        | error error =>
          rw [hvisible, hresult] at hfine
          exact absurd rfl hfine
        | ok value =>
          rw [hresult] at hholds
          rw [← NameMap.get?_congr outcome.computed hsame, hholds.1]
      | false =>
        have hnone : outcome.computed.get? name = none := by
          refine h.computed_eq_none fun found hfound hshown hname => ?_
          rw [hunique found hfound hname, hvisible] at hshown
          cases hshown
        rw [hnone]
    · -- a field that the user fills in
      have hnone : outcome.computed.get? name = none := by
        refine h.computed_eq_none fun found hfound _ hname => hkind ?_
        rw [← hunique found hfound hname]
        exact (Activity.mem_activeFields (hcalculated found hfound)).2
      cases htext : other.validText? entry with
      | none => simp only [hnone, Option.bind_some, hkind, htext, Bool.false_eq_true, if_false]
      | some text => simp only [hnone, Option.bind_some, hkind, htext, Bool.false_eq_true, if_false]

theorem Agrees.means_valueOf (hnames : activity.NamesDistinct) {entry : PeriodEntry}
    {fields : List Field} {results : Field → Except FormulaError Decimal} {outcome : Outcome}
    (h : Agrees settings activity entry fields results outcome)
    (hcalculated : ∀ field ∈ fields, field ∈ activity.calculatedFields) {field : Field}
    (hfield : field ∈ activity.calculatedFields)
    (hdependencies : ¬ activity.Blocked settings field →
      ∀ other ∈ activity.dependencies settings field, other ∈ fields) :
    activity.Means settings entry.period entry field
      (valueOf (.ofActivity settings activity) (entry.view (.ofActivity settings activity)) outcome
        (activity.planned settings field)) := by
  have hreading := ReadField.reading?_eq settings (Activity.mem_activeFields hfield).2
  rw [valueOf, Activity.planned, Activity.stepOf]
  cases hformula : (ReadField.ofField settings.maxFormulaLength field).formula with
  | error error =>
    rw [hformula] at hreading
    exact .unreadable hreading
  | ok formula =>
    rw [hformula] at hreading
    dsimp only
    by_cases hself : activity.Reaches settings field field
    · rw [if_pos hself]
      exact .cyclic hreading hself
    · rw [if_neg hself]
      cases hfirst : activity.firstBlocked? settings field with
      | some other => exact .behind hreading hself hfirst
      | none =>
        have hfree : ¬ activity.Blocked settings field := by
          intro hblocked
          have hsome := Activity.firstBlocked?_isSome hblocked
          rw [hfirst] at hsome
          cases hsome
        have hfields := hdependencies hfree
        have hmeans : ∀ other ∈ activity.dependencies settings field,
            other.isVisibleIn entry.period = true →
              activity.Means settings entry.period entry other (results other) :=
          fun other hother => h.means other (hfields other hother)
        -- the plan looks for the first failure among the same dependencies
        have hfailed : ((Plan.ofActivity settings activity).graph.dependencies field.name).find?
            outcome.failures.contains =
              (activity.firstFailed? settings entry.period results field).map (·.name) := by
          rw [Activity.graph_ofActivity, Activity.dependencies_graph hnames hfield, List.find?_map,
            Activity.firstFailed?, ← List.head?_filter, ← List.head?_filter]
          refine congrArg (fun fields => Option.map _ (List.head? fields))
            (List.filter_congr fun other hother => ?_)
          exact h.contains_failures hnames
            (fun field hmem => (Activity.mem_activeFields (hcalculated field hmem)).1)
            (hfields other hother)
        dsimp only
        rw [hfailed]
        cases hclear : activity.firstFailed? settings entry.period results field with
        | some other => exact .failed hreading hfree hmeans hclear
        | none =>
          -- with no failure among them, the formula sees what the meaning says
          have heval : formula.eval
              (source (entry.view (.ofActivity settings activity)) outcome.computed) =
                formula.eval (activity.source settings entry.period entry results) :=
            Expr.eval_congr fun name hmem =>
              h.source_eq hnames hcalculated hreading hfields hclear hmem
          rw [Option.map_none, heval]
          exact .evaluated hreading hfree hmeans hclear

/-- **Evaluating scheduled fields gives each of them what it means.**  By induction along the
schedule. -/
theorem exists_agrees (hnames : activity.NamesDistinct) (entry : PeriodEntry)
    {fields : List Field} (h : activity.Scheduled settings fields) :
    ∃ results, Agrees settings activity entry fields results
      (ofFields settings activity entry fields) := by
  induction h with
  | nil =>
    refine ⟨fun _ => .ok .zero, ⟨fun field hmem => ?_, fun field hmem => ?_, fun _ _ => ⟨rfl, rfl⟩⟩⟩
    · cases hmem
    · cases hmem
  | @snoc fields field hscheduled hfield hnew hdependencies ih =>
    obtain ⟨results, hagrees⟩ := ih
    have hcalculated : ∀ other ∈ fields, other ∈ activity.calculatedFields :=
      fun other hmem => hscheduled.mem_calculatedFields hmem
    have hactive := (Activity.mem_activeFields hfield).1
    have hdiffer : ∀ other ∈ fields, field.name.same other.name = false := by
      intro other hmem
      rw [Bool.eq_false_iff]
      intro hsame
      refine hnew ?_
      rw [hnames.eq_of_same hactive (Activity.mem_activeFields (hcalculated other hmem)).1 hsame]
      exact hmem
    rw [ofFields_snoc hnames entry fields hactive]
    cases hvisible : field.isVisibleIn entry.period with
    | false =>
      -- a field that is not shown has no part in the period
      have hstill : ∀ other ∈ fields ++ [field], other.isVisibleIn entry.period = true →
          other ∈ fields := by
        intro other hmem hshown
        refine (List.mem_append.1 hmem).resolve_right fun hlast => ?_
        rw [List.mem_singleton.1 hlast, hvisible] at hshown
        cases hshown
      refine ⟨results, ⟨fun other hmem hshown => ?_, fun other hmem hshown => ?_,
        fun name hnone => ?_⟩⟩
      · exact hagrees.means other (hstill other hmem hshown) hshown
      · exact hagrees.holds other (hstill other hmem hshown) hshown
      · exact hagrees.only name fun other hmem => hnone other (List.mem_append_left [field] hmem)
    | true =>
      -- nothing is held of the field before its turn, and nothing of the others is lost
      have hfresh := hagrees.only field.name fun other hmem _ => by
        rw [FieldName.same_comm, hdiffer other hmem]
      obtain ⟨hholds, hkept⟩ := holds_add (.ofActivity settings activity) entry.period
        (entry.view (.ofActivity settings activity)) (ofFields settings activity entry fields)
        (activity.stepOf settings field) hfresh.1 hfresh.2
      have hmeans := hagrees.means_valueOf hnames hcalculated hfield hdependencies
      have hold : ∀ other ∈ fields, other ≠ field := fun other hmem heq => hnew (heq ▸ hmem)
      refine ⟨fun other => if other = field then
          valueOf (.ofActivity settings activity) (entry.view (.ofActivity settings activity))
            (ofFields settings activity entry fields) (activity.planned settings field)
        else results other, ⟨fun other hmem hshown => ?_, fun other hmem hshown => ?_,
          fun name hnone => ?_⟩⟩
      · rcases List.mem_append.1 hmem with hmem | hmem
        · rw [if_neg (hold other hmem)]
          exact hagrees.means other hmem hshown
        · rw [if_pos (List.mem_singleton.1 hmem), List.mem_singleton.1 hmem]
          exact hmeans
      · rw [if_pos rfl]
        rcases List.mem_append.1 hmem with hmem | hmem
        · obtain ⟨hcomputed, hfailures⟩ := hkept other.name (hdiffer other hmem)
          rw [if_neg (hold other hmem)]
          exact (hagrees.holds other hmem hshown).congr hcomputed hfailures
        · rw [if_pos (List.mem_singleton.1 hmem), List.mem_singleton.1 hmem]
          exact hholds
      · rw [if_pos rfl]
        have hname := hnone field (List.mem_append_right _ (List.mem_singleton_self field)) hvisible
        obtain ⟨hcomputed, hfailures⟩ := hkept name hname
        obtain ⟨hnoValue, hnoError⟩ := hagrees.only name fun other hmem =>
          hnone other (List.mem_append_left [field] hmem)
        exact ⟨hcomputed.trans hnoValue, hfailures.trans hnoError⟩

end Outcome

/-! ### The sheet -/

/-- A cell shows what a calculated field came to. -/
def Cell.Shows (settings : Settings) (cell : Cell) : Except FormulaError Decimal → Prop
  | .ok value =>
    cell.computed =
        some (settings.numberFormat.format (settings.numberFormat.round value)) ∧
      cell.error = none
  | .error error => cell.computed = none ∧ cell.error = some (.formula error)

namespace ComputedPeriod

variable {settings : Settings} {activity : Activity}

/-- A row has one cell for each active field that is shown in its period. -/
theorem filter_cells (hnames : activity.NamesDistinct) (computed : ComputedPeriod) {field : Field}
    (hactive : field ∈ activity.activeFields)
    (hvisible : field.isVisibleIn computed.period = true) :
    (computed.row (.ofActivity settings activity)).cells.filter (·.field.same field.name) =
      [computed.cell activity.colourRules field] := by
  have hfields := Field.filter_same (hnames.filter (·.isVisibleIn computed.period))
    (List.mem_filter.2 ⟨hactive, hvisible⟩)
  have hcells : (computed.row (.ofActivity settings activity)).cells.filter
      (·.field.same field.name) =
        ((activity.activeFields.filter (·.isVisibleIn computed.period)).filter
          (·.name.same field.name)).map (computed.cell activity.colourRules) := List.filter_map
  rw [hcells, hfields, List.map_singleton]

/-- The cell of a calculated field shows what the outcome holds of the field. -/
theorem shows_cell (computed : ComputedPeriod) (rules : List ColourRule)
    (htexts : computed.entry.computed = computed.outcome.texts settings.numberFormat)
    {field : Field} (hcalculated : field.isCalculated = true)
    {result : Except FormulaError Decimal} (hholds : computed.outcome.Holds settings field result) :
    (computed.cell rules field).Shows settings result := by
  have hcomputed : computed.entry.computed? field.name =
      (computed.outcome.computed.get? field.name).map settings.numberFormat.format := by
    rw [PeriodEntry.computed?, htexts]
    exact NameMap.get?_map _ _ _
  have herror : computed.error? field =
      (computed.outcome.failures.get? field.name).map .formula := by
    rw [error?, if_pos hcalculated]
  cases result with
  | ok value =>
    rw [hholds.1, Option.map_some] at hcomputed
    rw [hholds.2, Option.map_none] at herror
    exact ⟨hcomputed, herror⟩
  | error error =>
    rw [hholds.1, Option.map_none] at hcomputed
    rw [hholds.2, Option.map_some] at herror
    exact ⟨hcomputed, herror⟩

end ComputedPeriod

namespace PeriodEntry

variable {settings : Settings} {activity : Activity}

/-- The outcome of a period agrees with results for the fields of a schedule, which are all the
calculated ones. -/
theorem exists_agrees_outcome (settings : Settings) (hnames : activity.NamesDistinct)
    (entry : PeriodEntry) :
    ∃ fields results, activity.Scheduled settings fields ∧
      (∀ field ∈ activity.calculatedFields, field ∈ fields) ∧
      Outcome.Agrees settings activity entry fields results
        (entry.outcome (.ofActivity settings activity)) := by
  obtain ⟨fields, hsteps, hscheduled, hall⟩ := Activity.exists_scheduled settings hnames
  have houtcome : entry.outcome (.ofActivity settings activity) =
      Outcome.ofFields settings activity entry fields := by
    rw [outcome, Outcome.ofView, hsteps, Outcome.ofFields]
  obtain ⟨results, hagrees⟩ := Outcome.exists_agrees hnames entry hscheduled
  exact ⟨fields, results, hscheduled, hall, houtcome ▸ hagrees⟩

/-- The outcome of a period holds, for each calculated field that is shown, what the field
means. -/
theorem exists_outcome_holds (settings : Settings) (hnames : activity.NamesDistinct)
    (entry : PeriodEntry) {field : Field} (hfield : field ∈ activity.calculatedFields)
    (hvisible : field.isVisibleIn entry.period = true) :
    ∃ result, activity.Means settings entry.period entry field result ∧
      (entry.outcome (.ofActivity settings activity)).Holds settings field result := by
  obtain ⟨fields, results, -, hall, hagrees⟩ := entry.exists_agrees_outcome settings hnames
  exact ⟨results field, hagrees.means field (hall field hfield) hvisible,
    hagrees.holds field (hall field hfield) hvisible⟩

/-- The row of an entry that holds its computed values shows what its outcome holds. -/
theorem exists_cell_shows (hnames : activity.NamesDistinct) {entry : PeriodEntry}
    (hevaluated : entry.evaluated (.ofActivity settings activity) = entry) {field : Field}
    (hfield : field ∈ activity.calculatedFields)
    (hvisible : field.isVisibleIn entry.period = true) {result : Except FormulaError Decimal}
    (hholds : (entry.outcome (.ofActivity settings activity)).Holds settings field result) :
    ∃ cell, (entry.row (.ofActivity settings activity)).cell? field.name = some cell ∧
      cell.Shows settings result := by
  obtain ⟨hactive, hcalculated⟩ := Activity.mem_activeFields hfield
  have htexts : entry.computed = (entry.outcome (.ofActivity settings activity)).texts
      settings.numberFormat := by
    conv_lhs => rw [← hevaluated]
    rfl
  let shown : ComputedPeriod := ⟨entry.period, entry.view (.ofActivity settings activity),
    entry.outcome (.ofActivity settings activity), entry⟩
  have hcells : (entry.row (.ofActivity settings activity)).cells.filter
      (·.field.same field.name) = [shown.cell activity.colourRules field] :=
    ComputedPeriod.filter_cells hnames shown hactive hvisible
  refine ⟨shown.cell activity.colourRules field, ?_,
    shown.shows_cell activity.colourRules htexts hcalculated hholds⟩
  rw [Row.cell?, ← List.head?_filter, hcells, List.head?_cons]

end PeriodEntry

/-- **Computing gives each calculated field what it means.**  Where the names of the active fields
are distinct, each period of a range has one meaning for each calculated field that is shown in it,
on the values that the period's entry has in the computed record, and its row shows that
meaning. -/
theorem Computation.ofRecord_means (activity : Activity) (settings : Settings) (record : Record)
    (range : PeriodRange) (hnames : activity.NamesDistinct) (hsorted : record.Sorted)
    (period : Nat) (hperiod : period ∈ range.periods activity.periodCount) (field : Field)
    (hfield : field ∈ activity.calculatedFields) (hvisible : field.isVisibleIn period = true) :
    let computed := ofRecord (.ofActivity settings activity) record range
    ∃ entry result row cell, computed.record.entry? period = some entry ∧
      (∀ other, activity.Means settings period entry field other ↔ other = result) ∧
      row ∈ computed.sheet.rows ∧ row.period = period ∧ row.cell? field.name = some cell ∧
      cell.Shows settings result := by
  intro computed
  have hsettled : computed.record.Settled (.ofActivity settings activity) period :=
    settled_ofRecord hsorted hperiod
  have hentry := (sorted_ofRecord (.ofActivity settings activity) hsorted range).entry?_of_has
    hsettled.has
  have hperiod' : (computed.record.opened period).period = period :=
    computed.record.period_opened period
  rw [← hperiod'] at hvisible
  obtain ⟨result, hmeans, hholds⟩ := PeriodEntry.exists_outcome_holds settings hnames
    (computed.record.opened period) hfield hvisible
  obtain ⟨cell, hcell, hshows⟩ := PeriodEntry.exists_cell_shows hnames hsettled.evaluated hfield
    hvisible hholds
  rw [hperiod'] at hmeans
  refine ⟨_, result, _, cell, hentry, fun other => ⟨fun h => h.unique hmeans, ?_⟩, ?_, hperiod',
    hcell, hshows⟩
  · rintro rfl
    exact hmeans
  · rw [sheet_ofRecord (.ofActivity settings activity) hsorted range]
    exact List.mem_map_of_mem hperiod

/-- The credit of the second half-year shows what its formula means. -/
theorem Computation.ofRecord_means_credits :
    let activity := Credits.activity [Credits.creditRule]
    let field := Field.calculated Credits.credit "[Paid] - [Due] + [Previous]"
    let entered := Credits.record "300" .empty .empty
    let computed := ofRecord (.ofActivity {} activity) entered .all
    activity.NamesDistinct ∧ entered.Sorted ∧ 2 ∈ PeriodRange.all.periods activity.periodCount ∧
      field ∈ activity.calculatedFields ∧ field.isVisibleIn 2 = true ∧
      ∃ entry result row cell, computed.record.entry? 2 = some entry ∧
        (∀ other, activity.Means {} 2 entry field other ↔ other = result) ∧
        row ∈ computed.sheet.rows ∧ row.period = 2 ∧ row.cell? field.name = some cell ∧
        cell.Shows {} result := by
  intro activity field entered computed
  have hnames : activity.NamesDistinct := by
    rw [Activity.NamesDistinct, Credits.activeFields_eq]
    decide +kernel
  have hsorted : entered.Sorted := by decide
  have hperiod : 2 ∈ PeriodRange.all.periods activity.periodCount := by decide
  have hfield : field ∈ activity.calculatedFields := by
    rw [Activity.calculatedFields, Credits.activeFields_eq]
    decide +kernel
  exact ⟨hnames, hsorted, hperiod, hfield, rfl,
    ofRecord_means activity {} entered .all hnames hsorted 2 hperiod field hfield rfl⟩

end PeriodSheet
