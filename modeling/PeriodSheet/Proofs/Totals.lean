import PeriodSheet.Proofs.Evaluation
import PeriodSheet.Proofs.NumberFormat
import PeriodSheet.Proofs.RequiredFields

/-!
# Totals

What the totals of a sheet add up.  They are taken from the texts of the cells: each of these is
read again, and the numbers are added one after the other, held at the largest decimal where a sum
is beyond it.  Nothing of this is lost as long as every sum on the way is a decimal: the total is
the written form of the exact sum of what the rows have computed (`Activity.Adds`).

* **`Activity.adds_addend`**: the number in a cell is what the field adds there.
* **`Decimal.value_foldl_saturatingAdd`**: the sum on the way is exact.
* **`NameMap.get?_ofLast`**: each total stands under the name of its field.
-/

namespace PeriodSheet

open Decimal

/-! ### Sums -/

/-- **Adding up is exact** where every sum on the way is the value of a decimal. -/
theorem Decimal.value_foldl_saturatingAdd {α : Type} (number? : α → Option Decimal) (items : List α)
    (start : Decimal) (h : ∀ n, ∃ d : Decimal,
      d.value = start.value + ((items.take n).map fun item => (number? item).elim 0 value).sum) :
    ((items.filterMap number?).foldl saturatingAdd start).value =
      start.value + (items.map fun item => (number? item).elim 0 value).sum := by
  induction items generalizing start with
  | nil => simp
  | cons item rest ih =>
    cases hitem : number? item with
    | none =>
      rw [List.filterMap_cons_none hitem, List.map_cons, List.sum_cons, hitem, Option.elim_none,
        zero_add]
      refine ih start fun n => ?_
      obtain ⟨d, hd⟩ := h (n + 1)
      exact ⟨d, by simpa [hitem] using hd⟩
    | some number =>
      obtain ⟨first, hfirst⟩ := h 1
      have hadd : (start.saturatingAdd number).value = start.value + number.value :=
        value_saturatingAdd (d := first) (by simpa [hitem] using hfirst)
      rw [List.filterMap_cons_some hitem, List.foldl_cons, List.map_cons, List.sum_cons, hitem,
        Option.elim_some, ← add_assoc, ← hadd]
      refine ih _ fun n => ?_
      obtain ⟨d, hd⟩ := h (n + 1)
      exact ⟨d, by simpa [hitem, hadd, add_assoc] using hd⟩

namespace NameMap

variable {α : Type}

/-- Under distinct names, every entry is found. -/
theorem get?_ofLast {entries : List (FieldName × α)}
    (hnames : entries.Pairwise fun a b => a.1.same b.1 = false) {e : FieldName × α}
    (h : e ∈ entries) : (ofLast entries).get? e.1 = some e.2 := by
  -- the entry that is erased first is of the name that is written
  have hwrite : ∀ (map : NameMap α) (other : FieldName × α),
      ((map.erase other.1).insert other.1 other.2).get? e.1 =
        if other.1.same e.1 then some other.2 else map.get? e.1 := fun map other => by
    by_cases hsame : other.1.same e.1 = true <;> simp [hsame]
  exact get?_foldl_of_mem hwrite hnames h (FieldName.same_refl e.1) empty

end NameMap

/-! ### Cells -/

/-- The number that is read from a cell without error. -/
def Cell.number? (cell : Cell) : Option Decimal :=
  if cell.error.isSome then none else cell.text?.bind ofEntered?

theorem Cell.number?_of_error {cell : Cell} {error : CellError} (h : cell.error = some error) :
    cell.number? = none := by
  rw [number?, h]
  rfl

theorem Cell.number?_of_text {cell : Cell} {text : String} (herror : cell.error = none)
    (htext : cell.text? = some text) : cell.number? = ofEntered? text := by
  rw [number?, herror, htext]
  rfl

namespace PeriodEntry

variable {settings : Settings} {activity : Activity}

/-- The row of an entry has a cell for a field where the field is shown. -/
theorem cell?_row (settings : Settings) (hnames : activity.NamesDistinct) (entry : PeriodEntry)
    {field : Field} (hactive : field ∈ activity.activeFields) :
    (entry.row (.ofActivity settings activity)).cell? field.name =
      if field.isVisibleIn entry.period then
        some (entry.cell (.ofActivity settings activity) field)
      else none := by
  let shown : ComputedPeriod := ⟨entry.period, entry.view (.ofActivity settings activity),
    entry.outcome (.ofActivity settings activity), entry⟩
  rw [Row.cell?, ← List.head?_filter]
  by_cases hvisible : field.isVisibleIn entry.period = true
  · have hcells : (entry.row (.ofActivity settings activity)).cells.filter
        (·.field.same field.name) = [shown.cell activity.colourRules field] :=
      shown.filter_cells hnames hactive hvisible
    rw [if_pos hvisible, hcells]
    rfl
  · rw [if_neg hvisible]
    -- a cell of the name would be that of another field
    have hnone : (entry.row (.ofActivity settings activity)).cells.filter
        (·.field.same field.name) = [] := by
      rw [List.filter_eq_nil_iff]
      intro cell hcell hsame
      obtain ⟨other, hother, rfl⟩ := List.mem_map.1 hcell
      obtain ⟨hmem, hshown⟩ := List.mem_filter.1 hother
      rw [hnames.eq_of_same hmem hactive hsame] at hshown
      exact hvisible hshown
    rw [hnone]
    rfl

theorem numberIn?_row (settings : Settings) (hnames : activity.NamesDistinct)
    (entry : PeriodEntry) {field : Field} (hactive : field ∈ activity.activeFields) :
    Sheet.numberIn? field.name (entry.row (.ofActivity settings activity)) =
      if field.isVisibleIn entry.period then
        (entry.cell (.ofActivity settings activity) field).number?
      else none := by
  rw [Sheet.numberIn?, cell?_row settings hnames entry hactive]
  split
  · rfl
  · rfl

/-- The outcome of a period has nothing for a field that the user fills in. -/
theorem get?_computed_outcome_of_entered (settings : Settings) (hnames : activity.NamesDistinct)
    (entry : PeriodEntry) {field : Field} (hactive : field ∈ activity.activeFields)
    (hentered : field.isCalculated = false) :
    (entry.outcome (.ofActivity settings activity)).computed.get? field.name = none := by
  obtain ⟨fields, results, hscheduled, -, hagrees⟩ := entry.exists_agrees_outcome settings hnames
  refine hagrees.computed_eq_none fun other hother _ hsame => ?_
  obtain ⟨hmem, hcalculated⟩ := Activity.mem_activeFields (hscheduled.mem_calculatedFields hother)
  rw [hnames.eq_of_same hmem hactive hsame, hentered] at hcalculated
  cases hcalculated

end PeriodEntry

/-! ### What a field adds -/

namespace Activity

/-- What a field adds to its total in the period of an entry.  A calculated field adds the rounded
number that it comes to, and nothing where it fails; a field that the user fills in adds the number
that its raw text is, and nothing where there is none, or where the field does not accept it. -/
inductive Adds (settings : Settings) (activity : Activity) (entry : PeriodEntry) (field : Field) :
    ℚ → Prop where
  | hidden (hhidden : field.isVisibleIn entry.period = false) :
      Adds settings activity entry field 0
  | computed {number : Decimal} (hvisible : field.isVisibleIn entry.period = true)
      (hcalculated : field.isCalculated = true)
      (hmeans : activity.Means settings entry.period entry field (.ok number)) :
      Adds settings activity entry field (settings.numberFormat.round number).value
  | failed {error : FormulaError} (hvisible : field.isVisibleIn entry.period = true)
      (hcalculated : field.isCalculated = true)
      (hmeans : activity.Means settings entry.period entry field (.error error)) :
      Adds settings activity entry field 0
  | entered {text : String} {number : Decimal} (hvisible : field.isVisibleIn entry.period = true)
      (hentered : field.isCalculated = false) (hraw : entry.raw? field.name = some text)
      (haccepts : field.Accepts text) (hnumber : ofEntered? text = some number) :
      Adds settings activity entry field number.value
  | unfilled (hvisible : field.isVisibleIn entry.period = true)
      (hentered : field.isCalculated = false)
      (hnone : ∀ text, entry.raw? field.name = some text → ¬ field.Accepts text) :
      Adds settings activity entry field 0

variable {settings : Settings} {activity : Activity} {entry : PeriodEntry} {field : Field}

theorem Adds.unique {x y : ℚ} (hx : activity.Adds settings entry field x)
    (hy : activity.Adds settings entry field y) : x = y := by
  cases hx with
  | hidden hhidden => cases hy <;> simp_all
  | computed hvisible hcalculated hmeans =>
    cases hy with
    | computed _ _ hmeans' => rw [Except.ok.inj (hmeans.unique hmeans')]
    | failed _ _ hmeans' => cases hmeans.unique hmeans'
    | hidden _ | entered _ _ _ _ _ | unfilled _ _ _ => simp_all
  | failed hvisible hcalculated hmeans =>
    cases hy with
    | computed _ _ hmeans' => cases hmeans.unique hmeans'
    | _ => simp_all
  | entered hvisible hentered hraw haccepts hnumber => cases hy <;> simp_all
  | unfilled hvisible hentered hnone => cases hy <;> simp_all

/-- The cell of a calculated field has the rounded number that the field comes to. -/
theorem adds_of_calculated (hnames : activity.NamesDistinct)
    (hmark : isMark settings.numberFormat.separator = true)
    (hevaluated : entry.evaluated (.ofActivity settings activity) = entry)
    (hactive : field ∈ activity.activeFields) (hcalculated : field.isCalculated = true)
    (hvisible : field.isVisibleIn entry.period = true) :
    activity.Adds settings entry field
      ((entry.cell (.ofActivity settings activity) field).number?.elim 0 value) := by
  have hfield : field ∈ activity.calculatedFields := List.mem_filter.2 ⟨hactive, hcalculated⟩
  obtain ⟨result, hmeans, hholds⟩ :=
    PeriodEntry.exists_outcome_holds settings hnames entry hfield hvisible
  have htexts : entry.computed = (entry.outcome (.ofActivity settings activity)).texts
      settings.numberFormat := by
    conv_lhs => rw [← hevaluated]
    rfl
  have hshows : (entry.cell (.ofActivity settings activity) field).Shows settings result :=
    ComputedPeriod.shows_cell _ _ htexts hcalculated hholds
  cases result with
  | error error =>
    rw [Cell.number?_of_error hshows.2]
    exact .failed hvisible hcalculated hmeans
  | ok number =>
    -- the text is read as the number that it was written from
    obtain ⟨read, zeros, hread, hextends, -, -⟩ :=
      NumberFormat.exists_ofEntered?_format hmark (settings.numberFormat.round number)
    have htext : (entry.cell (.ofActivity settings activity) field).text? =
        some (settings.numberFormat.format (settings.numberFormat.round number)) := by
      rw [Cell.text?, hshows.1]
      rfl
    rw [Cell.number?_of_text hshows.2 htext, hread, Option.elim_some, hextends.value_eq,
      NumberFormat.round_round]
    exact .computed hvisible hcalculated hmeans

/-- The cell of a field that the user fills in has the number that its raw text is. -/
theorem adds_of_entered (hnames : activity.NamesDistinct)
    (hevaluated : entry.evaluated (.ofActivity settings activity) = entry)
    (hactive : field ∈ activity.activeFields) (hentered : field.isCalculated = false)
    (hnumeric : field.dataType.isNumeric = true)
    (hvisible : field.isVisibleIn entry.period = true) :
    activity.Adds settings entry field
      ((entry.cell (.ofActivity settings activity) field).number?.elim 0 value) := by
  have hcomputed : entry.computed? field.name = none := by
    rw [← hevaluated]
    show ((entry.outcome _).computed.map _).get? field.name = none
    rw [NameMap.get?_map, PeriodEntry.get?_computed_outcome_of_entered settings hnames entry hactive
      hentered, Option.map_none]
  have htext : (entry.cell (.ofActivity settings activity) field).text? =
      entry.raw? field.name := by
    rw [Cell.text?, PeriodEntry.cell, ComputedPeriod.cell, hcomputed, hentered]
    rfl
  have herror : (entry.cell (.ofActivity settings activity) field).error =
      (field.textError? entry).map .invalid := by
    show ComputedPeriod.error? _ field = _
    rw [ComputedPeriod.error?, hentered, if_neg (by decide),
      get?_invalid_view_of_entered hnames entry hactive hentered]
  cases hraw : entry.raw? field.name with
  | none =>
    have hnone : (entry.cell (.ofActivity settings activity) field).number? = none := by
      rw [Cell.number?, htext, hraw]
      exact ite_self _
    rw [hnone]
    exact .unfilled hvisible hentered fun text htext => by rw [hraw] at htext; cases htext
  | some text =>
    have haccepted := Field.isSome_textError?_iff hraw
    cases hwrong : field.textError? entry with
    | some error =>
      rw [hwrong, Option.map_some] at herror
      rw [Cell.number?_of_error herror]
      refine .unfilled hvisible hentered fun other hother => ?_
      obtain rfl : text = other := Option.some.inj (hraw.symm.trans hother)
      exact haccepted.1 (by rw [hwrong]; rfl)
    | none =>
      have haccepts : field.Accepts text := by
        by_contra hnot
        have hsome := haccepted.2 hnot
        rw [hwrong] at hsome
        cases hsome
      obtain ⟨number, hnumber⟩ := haccepts.exists_ofEntered? hnumeric
      rw [hwrong, Option.map_none] at herror
      rw [Cell.number?_of_text herror (htext.trans hraw), hnumber]
      exact .entered hvisible hentered hraw haccepts hnumber

/-- **The number in the cell of a field is what the field adds.** -/
theorem adds_addend (hnames : activity.NamesDistinct)
    (hmark : isMark settings.numberFormat.separator = true)
    (hevaluated : entry.evaluated (.ofActivity settings activity) = entry)
    (hactive : field ∈ activity.activeFields) (hsummed : Sheet.isSummed field = true) :
    activity.Adds settings entry field
      ((Sheet.numberIn? field.name (entry.row (.ofActivity settings activity))).elim 0 value) := by
  rw [entry.numberIn?_row settings hnames hactive]
  cases hvisible : field.isVisibleIn entry.period with
  | false => exact .hidden hvisible
  | true =>
    cases hcalculated : field.isCalculated with
    | true => exact adds_of_calculated hnames hmark hevaluated hactive hcalculated hvisible
    | false =>
      have hnumeric : field.dataType.isNumeric = true := by
        simpa [Sheet.isSummed, hcalculated] using hsummed
      exact adds_of_entered hnames hevaluated hactive hcalculated hnumeric hvisible

end Activity

/-! ### Computed sheets -/

namespace Computation

/-- A row can be read off an entry of the computed record that holds its computed values. -/
theorem exists_evaluated_of_mem_rows {plan : Plan} {record : Record} (hsorted : record.Sorted)
    {range : PeriodRange} {row : Row} (h : row ∈ (ofRecord plan record range).sheet.rows) :
    ∃ entry : PeriodEntry, row = entry.row plan ∧ entry.evaluated plan = entry ∧
      Record.entry? (ofRecord plan record range).record entry.period = some entry := by
  obtain ⟨period, rfl, hsettled⟩ := exists_settled_of_mem_rows hsorted h
  refine ⟨_, rfl, hsettled.evaluated, ?_⟩
  rw [Record.period_opened]
  exact (sorted_ofRecord plan hsorted range).entry?_of_has hsettled.has

/-- A field adds one number in the row of a period, given the computed record. -/
def AddsOnce (settings : Settings) (activity : Activity) (computation : Computation)
    (field : Field) (row : Row) (addend : ℚ) : Prop :=
  ∃ entry, computation.record.entry? row.period = some entry ∧
    ∀ x, activity.Adds settings entry field x ↔ x = addend

theorem AddsOnce.rightUnique {settings : Settings} {activity : Activity} {computation : Computation}
    {field : Field} : Relator.RightUnique (computation.AddsOnce settings activity field) := by
  rintro row x y ⟨entry, hentry, hx⟩ ⟨entry', hentry', hy⟩
  obtain rfl : entry = entry' := Option.some.inj (hentry.symm.trans hentry')
  exact (hy x).1 ((hx x).2 rfl)

/-- In each computed row a field adds the number in its cell. -/
theorem forall₂_addsOnce {activity : Activity} {settings : Settings}
    (hnames : activity.NamesDistinct)
    (hmark : settings.numberFormat.separator = ',' ∨ settings.numberFormat.separator = '.')
    {record : Record} (hsorted : record.Sorted) (range : PeriodRange) {field : Field}
    (hactive : field ∈ activity.activeFields) (hsummed : Sheet.isSummed field = true) :
    let computation := ofRecord (.ofActivity settings activity) record range
    List.Forall₂ (computation.AddsOnce settings activity field) computation.sheet.rows
      (computation.sheet.rows.map fun row => (Sheet.numberIn? field.name row).elim 0 value) := by
  intro computation
  rw [List.forall₂_map_right_iff, List.forall₂_same]
  intro row hrow
  obtain ⟨entry, rfl, hevaluated, hfound⟩ := exists_evaluated_of_mem_rows hsorted hrow
  have hadds := Activity.adds_addend hnames (isMark_iff.2 hmark) hevaluated hactive hsummed
  refine ⟨entry, hfound, fun x => ⟨fun hx => hx.unique hadds, ?_⟩⟩
  rintro rfl
  exact hadds

/-- The totals have the sum of each summed field. -/
theorem get?_totalsOf {activity : Activity} (hnames : activity.NamesDistinct)
    (format : NumberFormat) (rows : List Row) {field : Field}
    (hactive : field ∈ activity.activeFields) (hsummed : Sheet.isSummed field = true) :
    (Sheet.totalsOf format activity.activeFields rows).get? field.name =
      some (Sheet.total format rows field.name) := by
  have hentry : (field.name, Sheet.total format rows field.name) ∈
      (activity.activeFields.filter Sheet.isSummed).map fun field =>
        (field.name, Sheet.total format rows field.name) :=
    List.mem_map_of_mem (List.mem_filter.2 ⟨hactive, hsummed⟩)
  exact NameMap.get?_ofLast (List.pairwise_map.2 (hnames.filter _)) hentry

/-- **Totals add up what the rows have computed.**  Take an activity that shows totals, with
distinct names of active fields, a comma or a point for the decimal mark, and sorted records.  For
each active field that is calculated or numeric, and each row:

* There is one number that the field adds there, which the entry of the row's period determines.
* If the sums of these numbers on the way, from the first row on, are values of decimals, the total
  of the field is the written form of the exact sum.  They are where they fit at the largest scale
  (`Decimal.exists_of_fits`). -/
theorem ofRecord_totals (activity : Activity) (settings : Settings)
    (hshown : activity.showsTotals = true) (hnames : activity.NamesDistinct)
    (hmark : settings.numberFormat.separator = ',' ∨ settings.numberFormat.separator = '.')
    (record : Record) (hsorted : record.Sorted) (range : PeriodRange) :
    let computation := ofRecord (.ofActivity settings activity) record range
    ∃ totals, computation.sheet.totals = some totals ∧
      ∀ field ∈ activity.activeFields, Sheet.isSummed field = true →
        ∃ addends : List ℚ,
          List.Forall₂ (computation.AddsOnce settings activity field)
            computation.sheet.rows addends ∧
          ((∀ n, ∃ d : Decimal, d.value = (addends.take n).sum) →
            ∀ sum : Decimal, sum.value = addends.sum →
              totals.get? field.name = some (settings.numberFormat.format sum)) := by
  intro computation
  let format := settings.numberFormat
  let rows := computation.sheet.rows
  refine ⟨Sheet.totalsOf format activity.activeFields rows, if_pos hshown,
    fun field hactive hsummed => ?_⟩
  refine ⟨_, forall₂_addsOnce hnames hmark hsorted range hactive hsummed,
    fun hsums sum hsum => ?_⟩
  have hadded := value_foldl_saturatingAdd (Sheet.numberIn? field.name) rows .zero fun n => by
    obtain ⟨d, hd⟩ := hsums n
    exact ⟨d, by rw [hd, value_zero, zero_add, ← List.map_take]⟩
  rw [value_zero, zero_add] at hadded
  rw [get?_totalsOf hnames format rows hactive hsummed]
  exact congrArg some (format.format_congr (hadded.trans hsum.symm))

end Computation

/-! ### Credits with totals -/

namespace Credits

/-- The activity without rules, with totals. -/
def totalled : Activity :=
  .periodic 1 "Credits"
    { name := "Half-years"
      periodCount := 2
      labels := ["H1", "H2"]
      showTotals := true
      fields }

theorem activeFields_totalled : totalled.activeFields = fields :=
  Activity.activeFields_of_ordered (by decide +kernel)

theorem plan_totalled : Plan.ofActivity {} totalled =
    .ofFields {} totalled (totalled.fields.filter (·.isActive)) :=
  Plan.ofActivity_of_ordered (by decide +kernel)

end Credits

/-- The credits of the two half-years are added up. -/
theorem Computation.ofRecord_totals_credits :
    let activity := Credits.totalled
    let field := Field.calculated Credits.credit "[Paid] - [Due] + [Previous]"
    let entered := Credits.record "300" (NameMap.empty.insert Credits.previous "12,5") .empty
    let computation := ofRecord (.ofActivity {} activity) entered .all
    activity.showsTotals = true ∧ activity.NamesDistinct ∧ entered.Sorted ∧
      field ∈ activity.activeFields ∧ Sheet.isSummed field = true ∧
      ∃ totals, computation.sheet.totals = some totals ∧
        List.Forall₂ (computation.AddsOnce {} activity field) computation.sheet.rows
          [300, 25 / 2] ∧
        totals.get? field.name = some "312,50" := by
  intro activity field entered computation
  have hnames : activity.NamesDistinct := by
    rw [Activity.NamesDistinct, Credits.activeFields_totalled]
    decide +kernel
  have hsorted : entered.Sorted := by decide
  have hactive : field ∈ activity.activeFields := by
    rw [Credits.activeFields_totalled]
    exact List.mem_cons_self
  have hsummed : Sheet.isSummed field = true := rfl
  obtain ⟨totals, htotals, hfields⟩ :=
    ofRecord_totals activity {} rfl hnames (.inl rfl) entered hsorted .all
  obtain ⟨addends, hadds, htotal⟩ := hfields field hactive hsummed
  let first : Decimal := ⟨false, 30000, 2, by decide, by decide⟩
  let second : Decimal := ⟨false, 1250, 2, by decide, by decide⟩
  let sum : Decimal := ⟨false, 3125, 1, by decide, by decide⟩
  have hnumbers : computation.sheet.rows.map (Sheet.numberIn? field.name) =
      [some first, some second] := by
    simp only [computation, activity, Credits.plan_totalled]
    decide +kernel
  have hvalues : computation.sheet.rows.map
      (fun row => (Sheet.numberIn? field.name row).elim 0 value) = [300, 25 / 2] := by
    have hmap := congrArg (List.map fun number? : Option Decimal => number?.elim 0 value) hnumbers
    rw [List.map_map] at hmap
    exact hmap.trans (by norm_num [first, second, value, signed])
  have hcells : List.Forall₂ (computation.AddsOnce {} activity field) computation.sheet.rows
      [300, 25 / 2] :=
    hvalues ▸ forall₂_addsOnce hnames (.inl rfl) hsorted .all hactive hsummed
  obtain rfl : addends = [300, 25 / 2] := AddsOnce.rightUnique.forall₂ hadds hcells
  have hsums : ∀ n, ∃ d : Decimal, d.value = (([300, 25 / 2] : List ℚ).take n).sum := by
    rintro (_ | _ | n)
    · exact ⟨.zero, by norm_num⟩
    · exact ⟨first, by norm_num [first, value, signed]⟩
    · exact ⟨sum, by norm_num [sum, value, signed]⟩
  have hwritten := htotal hsums sum (by norm_num [sum, value, signed])
  exact ⟨rfl, hnames, hsorted, hactive, hsummed, totals, htotals, hadds,
    hwritten.trans (by decide +kernel)⟩

end PeriodSheet
