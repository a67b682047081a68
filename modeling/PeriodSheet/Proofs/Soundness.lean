import PeriodSheet.Proofs.Decimal.Reading
import PeriodSheet.Proofs.Evaluation
import PeriodSheet.Proofs.Savable

/-!
# What is saved can be computed

In a savable activity calculated fields do not refer to one another, and their formulas read.  So a
plan evaluates each of them, and what may still go wrong in a period is arithmetic, or a text where
the formula needs a number: the fields that hold numbers have none that formulas could not read
(`Computation.ofRecord_sound`).
-/

namespace PeriodSheet

open Text

/-! ### The plan -/

namespace Activity

/-- Whether no active field has a longer formula than the settings accept. -/
def FormulasFit (settings : Settings) (activity : Activity) : Prop :=
  ∀ field ∈ activity.activeFields, ∀ source ∈ field.formula,
    source.length ≤ settings.maxFormulaLength

instance (settings : Settings) (activity : Activity) : Decidable (activity.FormulasFit settings) :=
  inferInstanceAs (Decidable (∀ field ∈ activity.activeFields, ∀ source ∈ field.formula, _))

variable {settings : Settings} {activity : Activity}

/-- **No calculated field refers to another one.** -/
theorem dependencies_of_savable (h : activity.savable = true)
    (hfit : activity.FormulasFit settings) {field : Field}
    (hfield : field ∈ activity.calculatedFields) : activity.dependencies settings field = [] := by
  have hnames := namesDistinct_of_savable h
  obtain ⟨formula, hread, hfields⟩ := exists_reading_of_savable settings h hfield
    (hfit field (mem_activeFields hfield).1)
  rw [List.eq_nil_iff_forall_not_mem]
  intro other hother
  obtain ⟨hcalculated, hmentions⟩ := (mem_dependencies hread).1 hother
  rw [Formula.mentions_eq] at hmentions
  obtain ⟨name, hname, hsame⟩ := List.any_eq_true.1 hmentions
  -- the one field of the name is filled in by the user
  obtain ⟨entered, hactive, hfound, hentered⟩ := hfields name hname
  obtain ⟨hactive', hcalculated'⟩ := mem_activeFields hcalculated
  have heq := hnames.eq_of_same hactive hactive'
    ((FieldName.same_congr_left hfound other.name).trans hsame)
  rw [heq, hcalculated'] at hentered
  cases hentered

theorem not_blocked_of_savable (h : activity.savable = true)
    (hfit : activity.FormulasFit settings) {field : Field}
    (hfield : field ∈ activity.calculatedFields) : ¬ activity.Blocked settings field := by
  intro hblocked
  obtain ⟨other, hmem, -⟩ := hblocked.exists_dependency
  rw [dependencies_of_savable h hfit hfield] at hmem
  cases hmem

/-- A plan evaluates the formula of each calculated field. -/
theorem planned_of_savable (h : activity.savable = true) (hfit : activity.FormulasFit settings)
    {field : Field} (hfield : field ∈ activity.calculatedFields) {formula : Formula}
    (hread : field.reading? settings = some (.ok formula)) :
    activity.planned settings field = ⟨field.name, .evaluate formula⟩ := by
  have hfree := not_blocked_of_savable h hfit hfield
  have hself : ¬ activity.Reaches settings field field := fun hself =>
    hfree (.of_reaches_self hself)
  rw [ReadField.reading?_eq settings (mem_activeFields hfield).2, Option.some.injEq] at hread
  rw [planned, stepOf, hread]
  dsimp only
  rw [if_neg hself, firstBlocked?_eq_none hfree]

theorem Scheduled.nodup {fields : List Field} (h : activity.Scheduled settings fields) :
    fields.Nodup := by
  induction h with
  | nil => exact .nil
  | snoc _ _ hnew _ ih =>
    refine List.nodup_append.2 ⟨ih, List.nodup_singleton _, fun a ha b hb => ?_⟩
    rintro rfl
    exact hnew (List.mem_singleton.1 hb ▸ ha)

/-- **The plan has one step for each calculated field, and evaluates its formula.** -/
theorem steps_of_savable (h : activity.savable = true) (hfit : activity.FormulasFit settings)
    {field : Field} (hfield : field ∈ activity.calculatedFields) {formula : Formula}
    (hread : field.reading? settings = some (.ok formula)) :
    (Plan.ofActivity settings activity).steps.filter (·.name.same field.name) =
      [⟨field.name, .evaluate formula⟩] := by
  have hnames := namesDistinct_of_savable h
  obtain ⟨fields, hsteps, hscheduled, hall⟩ := exists_scheduled settings hnames
  have hdistinct : fields.Pairwise fun a b => a.name.same b.name = false := by
    refine hscheduled.nodup.imp_of_mem fun {a b} ha hb hne => ?_
    rw [Bool.eq_false_iff]
    intro hsame
    exact hne (hnames.eq_of_same (mem_activeFields (hscheduled.mem_calculatedFields ha)).1
      (mem_activeFields (hscheduled.mem_calculatedFields hb)).1 hsame)
  rw [hsteps, List.filter_map]
  have hfilter : fields.filter ((·.name.same field.name) ∘ activity.planned settings) = [field] :=
    Field.filter_same hdistinct (hall field hfield)
  rw [hfilter, List.map_singleton, planned_of_savable h hfit hfield hread]

/-- The graph of references has no edges. -/
theorem targets_of_savable (h : activity.savable = true) (hfit : activity.FormulasFit settings) :
    ∀ targets ∈ (Plan.ofActivity settings activity).graph.targets, targets = [] := by
  have hnames := namesDistinct_of_savable h
  have hwf := wellFormed_graph settings activity
  intro targets htargets
  rw [graph_ofActivity] at htargets
  obtain ⟨rank, hrank⟩ := List.getElem?_of_mem htargets
  have hrefers : ∀ {target}, target ∈ targets → (activity.graph settings).Refers rank target := by
    intro target htarget
    rw [DependencyGraph.Refers, DependencyGraph.targetsOf, hrank]
    exact htarget
  rw [List.eq_nil_iff_forall_not_mem]
  intro target htarget
  -- both ends of an edge would be fields, and the one a dependency of the other
  have hsource := hwf.source_lt (hrefers htarget)
  have htarget' := hwf.target_lt (hrefers htarget)
  rw [size_graph] at hsource htarget'
  have hfield := List.getElem?_eq_getElem hsource
  have hdependency := (refers_iff hnames hfield (List.getElem?_eq_getElem htarget')).1
    (hrefers htarget)
  rw [dependencies_of_savable h hfit (List.mem_of_getElem? hfield)] at hdependency
  cases hdependency

end Activity

/-! ### Evaluation -/

/-- An operation fails where it divides by zero, or where its result is too large. -/
theorem Operation.apply_error {operation : Operation} {left right : Decimal} {error : FormulaError}
    (h : operation.apply left right = .error error) :
    error = .divisionByZero ∨ error = .overflow := by
  unfold apply at h
  dsimp only at h
  split at h
  · exact .inl (Except.error.inj h).symm
  · split at h
    · cases h
    · exact .inr (Except.error.inj h).symm

/-- An expression fails in arithmetic, or at a field that stands for a text. -/
theorem Expr.eval_error {source : Source} {expr : Expr} {error : FormulaError}
    (h : expr.eval source = .error error) :
    (error = .divisionByZero ∨ error = .overflow) ∨
      ∃ name ∈ expr.fields, ∃ text, source name = .text text ∧ error = .forbidden text 0 := by
  induction expr generalizing error with
  | number value => cases h
  | field name =>
    rw [eval] at h
    cases hname : source name with
    | missing =>
      rw [hname] at h
      cases h
    | number value =>
      rw [hname] at h
      cases h
    | text text =>
      rw [hname] at h
      exact .inr ⟨name, List.mem_singleton_self name, text, hname, (Except.error.inj h).symm⟩
  | binary left operation right ihl ihr =>
    rw [eval] at h
    split at h
    · next hleft =>
      obtain rfl := Except.error.inj h
      rcases ihl hleft with harithmetic | ⟨name, hname, htext⟩
      · exact .inl harithmetic
      · exact .inr ⟨name, List.mem_append_left right.fields hname, htext⟩
    · split at h
      · next hright =>
        obtain rfl := Except.error.inj h
        rcases ihr hright with harithmetic | ⟨name, hname, htext⟩
        · exact .inl harithmetic
        · exact .inr ⟨name, List.mem_append_right left.fields hname, htext⟩
      · exact .inl (Operation.apply_error h)
  | negate inner ih =>
    rw [eval] at h
    split at h
    · next hinner =>
      obtain rfl := Except.error.inj h
      exact ih hinner
    · cases h

/-- **What is a value of a numeric field is a number to formulas.** -/
theorem Value.exists_ofRaw_of_parse {field : Field} (hnumeric : field.dataType.isNumeric = true)
    {text : String} {value : Value} (h : Value.parse field text = .ok (some value)) :
    ∃ number, Operand.ofRaw text = .number number := by
  obtain ⟨number, hnumber⟩ := Field.Accepts.exists_ofEntered? ⟨value, h⟩ hnumeric
  unfold Value.parse at h
  split at h
  · cases h
  · next hshown => exact ⟨number, by rw [Operand.ofRaw, if_neg hshown, hnumber]⟩

/-- What may go wrong with a formula of an activity whatever the user enters: arithmetic, or that a
field that it refers to holds no numbers. -/
inductive FormulaError.Arises (activity : Activity) (formula : Formula) : FormulaError → Prop where
  | divisionByZero : Arises activity formula .divisionByZero
  | overflow : Arises activity formula .overflow
  | forbidden {token : String} {position : Nat} {field : Field}
      (hfield : field ∈ activity.activeFields) (hmentions : formula.mentions field.name = true)
      (htype : field.dataType.isNumeric = false) :
      Arises activity formula (.forbidden token position)

namespace Activity

variable {settings : Settings} {activity : Activity}

/-- A reference stands for a text where its field holds no numbers. -/
theorem exists_field_of_source_text {period : Nat} {entry : PeriodEntry}
    {results : Field → Except FormulaError Decimal} {name : FieldName} {text : String}
    (h : activity.source settings period entry results name = .text text) :
    ∃ field ∈ activity.activeFields, field.name.same name = true ∧
      field.dataType.isNumeric = false := by
  unfold source at h
  split at h
  · cases h
  · next field hfind =>
    refine ⟨field, List.mem_of_find?_eq_some hfind, Field.same_of_find? hfind, ?_⟩
    split at h
    · split at h <;> cases h
    · split at h
      · next raw hvalid =>
        rw [Bool.eq_false_iff]
        intro hnumeric
        obtain ⟨value, hvalue⟩ := Field.accepts_of_validText? hvalid
        obtain ⟨number, hnumber⟩ := Value.exists_ofRaw_of_parse hnumeric hvalue
        rw [hnumber] at h
        cases h
      · cases h

/-- A calculated field means what its formula evaluates to. -/
theorem eq_eval_of_means (h : activity.savable = true) (hfit : activity.FormulasFit settings)
    {field : Field} (hfield : field ∈ activity.calculatedFields) {formula : Formula}
    (hread : field.reading? settings = some (.ok formula)) {period : Nat} {entry : PeriodEntry}
    {result : Except FormulaError Decimal}
    (hmeans : activity.Means settings period entry field result) :
    result = formula.eval (activity.source settings period entry fun _ => .ok .zero) := by
  have hdependencies := dependencies_of_savable h hfit hfield
  refine hmeans.unique (.evaluated hread (not_blocked_of_savable h hfit hfield) ?_ ?_)
  · intro other hother
    rw [hdependencies] at hother
    cases hother
  · rw [firstFailed?, hdependencies]
    rfl

theorem arises_of_means (h : activity.savable = true) (hfit : activity.FormulasFit settings)
    {field : Field} (hfield : field ∈ activity.calculatedFields) {formula : Formula}
    (hread : field.reading? settings = some (.ok formula)) {period : Nat} {entry : PeriodEntry}
    {error : FormulaError} (hmeans : activity.Means settings period entry field (.error error)) :
    error.Arises activity formula := by
  have heval := (eq_eval_of_means h hfit hfield hread hmeans).symm
  rcases Expr.eval_error heval with (rfl | rfl) | ⟨name, hname, text, htext, rfl⟩
  · exact .divisionByZero
  · exact .overflow
  · obtain ⟨other, hother, hsame, htype⟩ := exists_field_of_source_text htext
    refine .forbidden hother ?_ htype
    rw [Formula.mentions_eq]
    exact List.any_eq_true.2 ⟨name, hname, (FieldName.same_comm name other.name).trans hsame⟩

end Activity

/-! ### Rows -/

/-- A row of a period as computing builds it: its outcome is that of one entry, and it shows another
one with the computed values of the outcome.  The two differ where the periods of a record
descend. -/
def Row.IsComputed (plan : Plan) (row : Row) : Prop :=
  ∃ entry shown : PeriodEntry, row = ComputedPeriod.row plan
    ⟨entry.period, entry.view plan, entry.outcome plan,
      { shown with computed := (entry.outcome plan).texts plan.settings.numberFormat }⟩

/-- A period is seen as one with an entry, a blank one where the record has none of it. -/
theorem Record.exists_entry_view (plan : Plan) (record : Record) (period : Nat) :
    ∃ entry : PeriodEntry, entry.period = period ∧
      PeriodView.ofFields plan.fields (record.entry? period) = entry.view plan := by
  cases hfound : record.entry? period with
  | none => exact ⟨.blank period, rfl, (PeriodEntry.view_blank plan period).symm⟩
  | some entry => exact ⟨entry, by simpa using List.find?_some hfound, rfl⟩

namespace Computing

theorem rows_carryOver (plan : Plan) (period : Nat) (view : PeriodView) (outcome : Outcome)
    (computing : Computing) :
    (computing.carryOver plan period view outcome).rows = computing.rows := by
  unfold carryOver
  split
  · rfl
  · split <;> rfl

/-- A step adds a row, whatever the order of the entries is. -/
theorem exists_row_step (plan : Plan) (computing : Computing) (period : Nat) :
    ∃ row, row.IsComputed plan ∧ (computing.step plan period).rows = computing.rows ++ [row] := by
  obtain ⟨entry, rfl, hview⟩ := computing.record.exists_entry_view plan period
  refine ⟨_, ⟨entry, computing.record.opened entry.period, rfl⟩, ?_⟩
  rw [PeriodEntry.outcome, ← hview, step, rows_carryOver]

theorem isComputed_of_mem_foldl (plan : Plan) (periods : List Nat) {computing : Computing}
    (h : ∀ row ∈ computing.rows, row.IsComputed plan) :
    ∀ row ∈ (periods.foldl (step plan) computing).rows, row.IsComputed plan := by
  induction periods generalizing computing with
  | nil => exact h
  | cons period rest ih =>
    obtain ⟨added, hadded, hrows⟩ := exists_row_step plan computing period
    refine ih fun row hrow => ?_
    rw [hrows] at hrow
    rcases List.mem_append.1 hrow with hrow | hrow
    · exact h row hrow
    · exact List.mem_singleton.1 hrow ▸ hadded

end Computing

/-- Every row of a computed sheet was computed from an entry. -/
theorem Computation.isComputed_of_mem_rows {plan : Plan} {record : Record} {range : PeriodRange}
    {row : Row} (h : row ∈ (ofRecord plan record range).sheet.rows) : row.IsComputed plan :=
  Computing.isComputed_of_mem_foldl plan _ (fun _ hnone => by cases hnone) row h

/-- A row has one cell for a calculated field that is shown, with what the field means. -/
theorem Row.IsComputed.exists_cell {settings : Settings} {activity : Activity} {row : Row}
    (hrow : row.IsComputed (.ofActivity settings activity)) (hnames : activity.NamesDistinct)
    {field : Field} (hfield : field ∈ activity.calculatedFields)
    (hvisible : field.isVisibleIn row.period = true) :
    ∃ cell entry result, row.cells.filter (·.field.same field.name) = [cell] ∧
      activity.Means settings row.period entry field result ∧ cell.Shows settings result := by
  obtain ⟨entry, shown, rfl⟩ := hrow
  obtain ⟨hactive, hcalculated⟩ := Activity.mem_activeFields hfield
  obtain ⟨result, hmeans, hholds⟩ :=
    PeriodEntry.exists_outcome_holds settings hnames entry hfield hvisible
  exact ⟨_, entry, result, ComputedPeriod.filter_cells hnames _ hactive hvisible, hmeans,
    ComputedPeriod.shows_cell _ activity.colourRules rfl hcalculated hholds⟩

/-- **What is saved can be computed.**  In the plan of a savable activity whose formulas fit, the
graph has no edges and each calculated field is evaluated, once.  Every row that is computed, from
whatever record, has one cell for a calculated field that is shown, with either a computed text or
an error, and then the formula has divided by zero, has left the range of decimals or has met a text
in a field that holds no numbers. -/
theorem Computation.ofRecord_sound (activity : Activity) (settings : Settings)
    (hsavable : activity.savable = true) (hfit : activity.FormulasFit settings) :
    let plan := Plan.ofActivity settings activity
    (∀ targets ∈ plan.graph.targets, targets = []) ∧
    ∀ field ∈ activity.calculatedFields, ∃ formula,
      field.reading? settings = some (.ok formula) ∧
      plan.steps.filter (·.name.same field.name) = [⟨field.name, .evaluate formula⟩] ∧
      ∀ (record : Record) (range : PeriodRange), ∀ row ∈ (ofRecord plan record range).sheet.rows,
        field.isVisibleIn row.period = true →
          ∃ cell, row.cells.filter (·.field.same field.name) = [cell] ∧
            (cell.computed.isSome = true ∧ cell.error = none ∨
              cell.computed = none ∧ ∃ error, cell.error = some (.formula error) ∧
                error.Arises activity formula) := by
  intro plan
  refine ⟨Activity.targets_of_savable hsavable hfit, fun field hfield => ?_⟩
  have hnames := Activity.namesDistinct_of_savable hsavable
  obtain ⟨formula, hread, -⟩ := Activity.exists_reading_of_savable settings hsavable hfield
    (hfit field (Activity.mem_activeFields hfield).1)
  refine ⟨formula, hread, Activity.steps_of_savable hsavable hfit hfield hread,
    fun record range row hrow hvisible => ?_⟩
  obtain ⟨cell, entry, result, hcell, hmeans, hshows⟩ :=
    (isComputed_of_mem_rows hrow).exists_cell hnames hfield hvisible
  refine ⟨cell, hcell, ?_⟩
  cases result with
  | ok value =>
    left
    rw [hshows.1]
    exact ⟨rfl, hshows.2⟩
  | error error =>
    exact .inr ⟨hshows.1, error, hshows.2,
      Activity.arises_of_means hsavable hfit hfield hread hmeans⟩

/-- Credits can be computed. -/
theorem Computation.ofRecord_sound_credits :
    let activity := Credits.activity [Credits.creditRule]
    let field := Field.calculated Credits.credit "[Paid] - [Due] + [Previous]"
    let plan := Plan.ofActivity {} activity
    activity.savable = true ∧ activity.FormulasFit {} ∧ field ∈ activity.calculatedFields ∧
      (∀ targets ∈ plan.graph.targets, targets = []) ∧
      ∃ formula,
        plan.steps.filter (·.name.same field.name) = [⟨field.name, .evaluate formula⟩] := by
  intro activity field plan
  have hsavable : activity.savable = true := by decide +kernel
  have hfit : activity.FormulasFit {} := by
    rw [Activity.FormulasFit, Credits.activeFields_eq]
    decide
  have hfield : field ∈ activity.calculatedFields := by
    rw [Activity.calculatedFields, Credits.activeFields_eq]
    decide +kernel
  obtain ⟨hgraph, hfields⟩ := ofRecord_sound activity {} hsavable hfit
  obtain ⟨formula, -, hsteps, -⟩ := hfields field hfield
  exact ⟨hsavable, hfit, hfield, hgraph, formula, hsteps⟩

end PeriodSheet
