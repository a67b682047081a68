import PeriodSheet.Computation
import PeriodSheet.Proofs.Carrying

/-!
# Runs over periods

What computing consecutive periods makes of a record, told from the record that comes out.

A period is computed from its own entry: the view, the outcome, the computed values and what is
carried on are functions of that entry (`PeriodEntry.view` and its followers), and so is the row.
One step changes the entries of its period and of the next one only (`opened_computePeriod`).  A run
therefore leaves behind a record in which every entry of the range holds its own computed values,
every entry after the first of them holds what the rules make of it on the entry before, and from
which the rows can be read off (`Computing.Ran`).  Such runs are put together from single steps
(`ran_step`, `Ran.trans`).
-/

namespace PeriodSheet

open Text

/-! ### From an entry -/

namespace PeriodEntry

/-- The view of a period with this entry. -/
def view (plan : Plan) (entry : PeriodEntry) : PeriodView :=
  .ofFields plan.fields (some entry)

/-- The outcome of a period with this entry. -/
def outcome (plan : Plan) (entry : PeriodEntry) : Outcome :=
  .ofView plan entry.period (entry.view plan)

/-- The entry with the computed values that its period comes to. -/
def evaluated (plan : Plan) (entry : PeriodEntry) : PeriodEntry :=
  { entry with computed := (entry.outcome plan).texts plan.settings.numberFormat }

/-- What a period with this entry carries into the next entry. -/
def carryInto (plan : Plan) (entry next : PeriodEntry) : Carrying :=
  .ofRules plan entry.period (entry.view plan) (entry.outcome plan) next

/-- The events of carrying out of a period with this entry; there are none in the last period. -/
def carryEvents (plan : Plan) (entry next : PeriodEntry) : List CarryEvent :=
  if entry.period < plan.activity.periodCount then (entry.carryInto plan next).events else []

/-- The row of a period with this entry. -/
def row (plan : Plan) (entry : PeriodEntry) : Row :=
  ComputedPeriod.row plan ⟨entry.period, entry.view plan, entry.outcome plan, entry⟩

/-- A view depends on the raw values that are shown, and on nothing else. -/
theorem view_congr (plan : Plan) {a b : PeriodEntry} (h : ∀ field, a.raw? field = b.raw? field) :
    a.view plan = b.view plan := by
  have hadd : PeriodView.add (some a) = PeriodView.add (some b) := by
    funext view field
    simp only [PeriodView.add, PeriodView.textOf?, Option.bind_some, h]
  simp only [view, PeriodView.ofFields, hadd]

/-- A period without an entry looks like one with a blank entry. -/
theorem view_blank (plan : Plan) (period : Nat) :
    (blank period).view plan = .ofFields plan.fields none := by
  have hadd : PeriodView.add (some (blank period)) = PeriodView.add none := by
    funext view field
    rfl
  simp only [view, PeriodView.ofFields, hadd]

/-- An outcome depends on the period and the raw values that are shown. -/
theorem outcome_congr (plan : Plan) {a b : PeriodEntry} (hperiod : a.period = b.period)
    (h : ∀ field, a.raw? field = b.raw? field) : a.outcome plan = b.outcome plan := by
  rw [outcome, outcome, hperiod, view_congr plan h]

@[simp]
theorem view_evaluated (plan : Plan) (entry : PeriodEntry) :
    (entry.evaluated plan).view plan = entry.view plan :=
  view_congr plan fun _ => rfl

@[simp]
theorem outcome_evaluated (plan : Plan) (entry : PeriodEntry) :
    (entry.evaluated plan).outcome plan = entry.outcome plan :=
  outcome_congr plan rfl fun _ => rfl

@[simp]
theorem evaluated_evaluated (plan : Plan) (entry : PeriodEntry) :
    (entry.evaluated plan).evaluated plan = entry.evaluated plan := by
  rw [evaluated, outcome_evaluated]
  rfl

@[simp]
theorem slot_evaluated (plan : Plan) (entry : PeriodEntry) (field : FieldName) :
    (entry.evaluated plan).slot field = entry.slot field :=
  rfl

/-- The rules act on the slots of the next entry. -/
theorem slot_carryInto (plan : Plan) (entry next : PeriodEntry) (field : FieldName) :
    (entry.carryInto plan next).entry.slot field =
      CarryAction.run plan.settings.carryPolicy
        (Carrying.actionsFor plan (entry.view plan) (entry.outcome plan) field)
        (next.slot field) :=
  Carrying.slot_ofRules plan entry.period (entry.view plan) (entry.outcome plan) next field

/-! #### Sameness -/

theorem Same.raw? {a b : PeriodEntry} (h : a.Same b) (field : FieldName) :
    a.raw? field = b.raw? field := by
  rw [raw?_eq_shown, raw?_eq_shown, h.slot field]

theorem Same.view {a b : PeriodEntry} (h : a.Same b) (plan : Plan) : a.view plan = b.view plan :=
  view_congr plan h.raw?

theorem Same.outcome {a b : PeriodEntry} (h : a.Same b) (plan : Plan) :
    a.outcome plan = b.outcome plan :=
  outcome_congr plan h.period h.raw?

theorem Same.evaluated {a b : PeriodEntry} (h : a.Same b) (plan : Plan) :
    (a.evaluated plan).Same (b.evaluated plan) := by
  refine same_of_slots h.period h.slot fun name => ?_
  simp only [PeriodEntry.evaluated, h.outcome plan]

/-- Entries of one period that hold their own computed values are the same where their slots are. -/
theorem same_of_evaluated {plan : Plan} {a b : PeriodEntry} (hperiod : a.period = b.period)
    (hslot : ∀ field, a.slot field = b.slot field) (ha : a.evaluated plan = a)
    (hb : b.evaluated plan = b) : a.Same b := by
  have houtcome : a.outcome plan = b.outcome plan := by
    refine outcome_congr plan hperiod fun field => ?_
    rw [raw?_eq_shown, raw?_eq_shown, hslot field]
  have hcomputed : a.computed = b.computed := by
    rw [← ha, ← hb, PeriodEntry.evaluated, PeriodEntry.evaluated, houtcome]
  exact same_of_slots hperiod hslot fun name => congrArg (·.get? name) hcomputed

/-- Entries that are the same carry the same into entries that are the same. -/
theorem Same.carryInto {a b c d : PeriodEntry} (h : a.Same b) (hnext : c.Same d) (plan : Plan) :
    (a.carryInto plan c).entry.Same (b.carryInto plan d).entry := by
  have hframe (entry next : PeriodEntry) := Carrying.frame_ofRules plan entry.period
    (entry.view plan) (entry.outcome plan) next
  refine same_of_slots ?_ (fun field => ?_) ?_
  · exact (hframe a c).1.trans (hnext.period.trans (hframe b d).1.symm)
  · rw [slot_carryInto, slot_carryInto, h.view plan, h.outcome plan, hnext.slot field]
  · intro name
    rw [PeriodEntry.carryInto, PeriodEntry.carryInto, (hframe a c).2, (hframe b d).2]
    exact hnext.computed name

theorem Same.row {a b : PeriodEntry} (h : a.Same b) (plan : Plan) : a.row plan = b.row plan := by
  have hcomputed : ∀ field, a.computed? field = b.computed? field := h.computed
  have hcarried : ∀ field, a.isCarried field = b.isCarried field :=
    fun field => h.carried.contains field
  have hany : (a.raw.toList.any fun e => !isBlankText e.2) =
      b.raw.toList.any fun e => !isBlankText e.2 := h.raw.any (!isBlankText ·)
  -- a row looks at the entry through these alone
  have heffective : ∀ field,
      ComputedPeriod.effective? ⟨b.period, b.view plan, b.outcome plan, a⟩ field =
        ComputedPeriod.effective? ⟨b.period, b.view plan, b.outcome plan, b⟩ field := by
    intro field
    simp only [ComputedPeriod.effective?, hcomputed]
  simp only [PeriodEntry.row, h.period, h.view plan, h.outcome plan, ComputedPeriod.row,
    ComputedPeriod.values, ComputedPeriod.isComplete, heffective, h.raw?, hany, Row.mk.injEq,
    true_and, and_true]
  refine List.map_congr_left fun field _ => ?_
  simp only [ComputedPeriod.cell, ComputedPeriod.cellStyle, ComputedPeriod.error?, heffective,
    h.raw?, hcomputed, hcarried]

end PeriodEntry

/-! ### One period -/

namespace Record

/-- The record after one period was computed. -/
def computePeriod (plan : Plan) (record : Record) (period : Nat) : Record :=
  let entry := (record.opened period).evaluated plan
  if period < plan.activity.periodCount then
    (record.put entry).put (entry.carryInto plan (record.opened (period + 1))).entry
  else record.put entry

theorem period_carryInto_opened (plan : Plan) (entry : PeriodEntry) (record : Record)
    (period : Nat) : (entry.carryInto plan (record.opened period)).entry.period = period :=
  (Carrying.frame_ofRules plan _ _ _ _).1.trans (record.period_opened period)

/-- Computing a period changes its own entry and what the next one is carried. -/
theorem opened_computePeriod (plan : Plan) (record : Record) (period other : Nat) :
    (record.computePeriod plan period).opened other =
      if other = period then (record.opened period).evaluated plan
      else if other = period + 1 ∧ period < plan.activity.periodCount then
        (((record.opened period).evaluated plan).carryInto plan (record.opened other)).entry
      else record.opened other := by
  have hself : ((record.opened period).evaluated plan).period = period :=
    record.period_opened period
  unfold computePeriod
  -- the last period has no next one
  by_cases hlast : period < plan.activity.periodCount
  · simp only [hlast, if_true, opened_put, hself, period_carryInto_opened, and_true]
    by_cases hnext : other = period + 1
    · simp [hnext]
    · simp [hnext]
  · simp [hlast, opened_put, hself]

theorem Sorted.computePeriod {record : Record} (h : record.Sorted) (plan : Plan) (period : Nat) :
    (record.computePeriod plan period).Sorted := by
  unfold Record.computePeriod
  dsimp only
  split
  · exact (h.put _).put _
  · exact h.put _

theorem Ascending.computePeriod {record : Record} (h : record.Ascending) (plan : Plan)
    (period : Nat) : (record.computePeriod plan period).Ascending := by
  unfold Record.computePeriod
  dsimp only
  split
  · exact (h.put _).put _
  · exact h.put _

/-- Computing a period gives it an entry, and the next one where there is one; no entry is lost. -/
theorem has_computePeriod (plan : Plan) (record : Record) (period other : Nat) :
    (record.computePeriod plan period).Has other ↔
      other = period ∨ (other = period + 1 ∧ period < plan.activity.periodCount) ∨
        record.Has other := by
  have hself : ((record.opened period).evaluated plan).period = period :=
    record.period_opened period
  unfold computePeriod
  by_cases hlast : period < plan.activity.periodCount
  · simp only [hlast, if_true, has_put, hself, period_carryInto_opened, and_true]
    exact or_left_comm
  · simp [hlast, has_put, hself]

theorem Same.computePeriod {a b : Record} (h : a.Same b) (plan : Plan) (period : Nat) :
    (a.computePeriod plan period).Same (b.computePeriod plan period) := by
  have hentry := (h.opened period).evaluated plan
  unfold Record.computePeriod
  dsimp only
  split
  · exact (h.put hentry).put (hentry.carryInto (h.opened (period + 1)) plan)
  · exact h.put hentry

end Record

namespace Computing

/-- A step computes its period from the period's entry. -/
theorem step_eq (plan : Plan) {computing : Computing} (hsorted : computing.record.Sorted)
    (period : Nat) :
    let entry := (computing.record.opened period).evaluated plan
    (computing.step plan period).record = computing.record.computePeriod plan period ∧
      (computing.step plan period).rows = computing.rows ++ [entry.row plan] ∧
      (computing.step plan period).carried = computing.carried ++
        entry.carryEvents plan (computing.record.opened (period + 1)) := by
  -- a period without an entry looks like the blank one that it is opened with
  have hview : PeriodView.ofFields plan.fields (computing.record.entry? period) =
      (computing.record.opened period).view plan := by
    by_cases hhas : computing.record.Has period
    · rw [hsorted.entry?_of_has hhas]
      rfl
    · rw [Record.entry?_of_not_has hhas, Record.opened_of_not_has hhas, PeriodEntry.view_blank]
  have hperiod : (computing.record.opened period).period = period :=
    computing.record.period_opened period
  have houtcome : Outcome.ofView plan period ((computing.record.opened period).view plan) =
      (computing.record.opened period).outcome plan := by
    rw [PeriodEntry.outcome, hperiod]
  -- the computed entry does not stand in the way of the next one
  have hnext : (computing.record.put ((computing.record.opened period).evaluated plan)).opened
      (period + 1) = computing.record.opened (period + 1) := by
    rw [Record.opened_put, if_neg]
    change period + 1 ≠ (computing.record.opened period).period
    omega
  have hperiod' : ((computing.record.opened period).evaluated plan).period = period := hperiod
  have hentry : { computing.record.opened period with
      computed := ((computing.record.opened period).outcome plan).texts
        plan.settings.numberFormat } = (computing.record.opened period).evaluated plan := rfl
  dsimp only
  simp only [step, hview, houtcome, hentry, Record.computePeriod, PeriodEntry.carryEvents, hperiod',
    PeriodEntry.row, PeriodEntry.view_evaluated, PeriodEntry.outcome_evaluated,
    PeriodEntry.carryInto, carryOver]
  by_cases hlast : period < plan.activity.periodCount
  · simp [hlast, hnext]
  · simp only [hlast, if_false]
    split <;> simp

/-! ### A run -/

/-- What a run over `count` periods from `first` on makes of a record. -/
structure Ran (plan : Plan) (first count : Nat) (before after : Computing) : Prop where
  sorted : after.record.Sorted
  /-- The client, the activity, the year and the version are as before. -/
  identity : after.record = { before.record with entries := after.record.entries }
  has : ∀ period, after.record.Has period ↔ before.record.Has period ∨
    ∃ computed, first ≤ computed ∧ computed < first + count ∧
      (period = computed ∨ period = computed + 1 ∧ computed < plan.activity.periodCount)
  /-- Entries before the range, and beyond the one after it, are as before. -/
  outside : ∀ period, period < first ∨ first + count < period →
    after.record.opened period = before.record.opened period
  /-- A period that nothing is carried into keeps its slots. -/
  kept : ∀ period, ¬ (first < period ∧ period ≤ first + count ∧
    period ≤ plan.activity.periodCount) → ∀ field,
      (after.record.opened period).slot field = (before.record.opened period).slot field
  /-- Each entry of the range holds the values that its period comes to. -/
  evaluated : ∀ period, first ≤ period → period < first + count →
    (after.record.opened period).evaluated plan = after.record.opened period
  /-- Each entry after one of the range holds what the rules make of it. -/
  carriedInto : ∀ period, first ≤ period → period < first + count →
    period < plan.activity.periodCount → ∀ field,
      (after.record.opened (period + 1)).slot field =
        ((after.record.opened period).carryInto plan
          (before.record.opened (period + 1))).entry.slot field
  /-- The rows can be read off the entries. -/
  rows : after.rows = before.rows ++
    (List.range' first count).map fun period => (after.record.opened period).row plan
  carried : after.carried = before.carried ++ (List.range' first count).flatMap fun period =>
    (after.record.opened period).carryEvents plan (before.record.opened (period + 1))

theorem Ran.zero (plan : Plan) (first : Nat) {computing : Computing}
    (hsorted : computing.record.Sorted) : Ran plan first 0 computing computing where
  sorted := hsorted
  identity := rfl
  has period := by
    refine ⟨.inl, ?_⟩
    rintro (h | ⟨computed, hge, hlt, -⟩)
    · exact h
    · omega
  outside _ _ := rfl
  kept _ _ _ := rfl
  evaluated period hge hlt := by omega
  carriedInto period hge hlt := by omega
  rows := (List.append_nil _).symm
  carried := (List.append_nil _).symm

/-- A step is a run over its period. -/
theorem ran_step (plan : Plan) {computing : Computing} (hsorted : computing.record.Sorted)
    (period : Nat) : Ran plan period 1 computing (computing.step plan period) := by
  obtain ⟨hrecord, hrows, hcarried⟩ := step_eq plan hsorted period
  have hself : (computing.step plan period).record.opened period =
      (computing.record.opened period).evaluated plan := by
    rw [hrecord, Record.opened_computePeriod, if_pos rfl]
  refine ⟨?_, ?_, fun other => ?_, fun other h => ?_, fun other h field => ?_,
    fun other hge hlt => ?_, fun other hge hlt hlast field => ?_, ?_, ?_⟩
  · rw [hrecord]
    exact hsorted.computePeriod plan period
  · rw [hrecord]
    unfold Record.computePeriod
    dsimp only
    split <;> rfl
  · -- the period itself, and the next one where there is one
    rw [hrecord, Record.has_computePeriod]
    constructor
    · rintro (h | h | h)
      · exact .inr ⟨period, Nat.le_refl _, Nat.lt_succ_self _, .inl h⟩
      · exact .inr ⟨period, Nat.le_refl _, Nat.lt_succ_self _, .inr h⟩
      · exact .inl h
    · rintro (h | ⟨computed, hge, hlt, h⟩)
      · exact .inr (.inr h)
      · obtain rfl : computed = period := by omega
        exact h.imp_right .inl
  · rw [hrecord, Record.opened_computePeriod, if_neg (by omega), if_neg (by omega)]
  · rw [hrecord, Record.opened_computePeriod]
    split
    · rename_i heq
      rw [PeriodEntry.slot_evaluated, heq]
    · rw [if_neg (by omega)]
  · -- the one period of the range
    obtain rfl : other = period := by omega
    rw [hself, PeriodEntry.evaluated_evaluated]
  · obtain rfl : other = period := by omega
    rw [hself, hrecord, Record.opened_computePeriod, if_neg (by omega), if_pos ⟨rfl, hlast⟩]
  · rw [hrows, List.range'_one, List.map_singleton, hself]
  · rw [hcarried, List.range'_one, List.flatMap_singleton, hself]

/-- A run goes on where another one ended: what the later periods do to the earlier ones, and to
the slots that were carried into, is nothing. -/
theorem Ran.trans {plan : Plan} {first count more : Nat} {before middle after : Computing}
    (h : Ran plan first count before middle) (h' : Ran plan (first + count) more middle after) :
    Ran plan first (count + more) before after := by
  -- the entries that the first run computed, and those that it did not come to
  have hearlier : ∀ period, period < first + count →
      after.record.opened period = middle.record.opened period :=
    fun period hlt => h'.outside period (.inl hlt)
  have hlater : ∀ period, first + count < period →
      middle.record.opened period = before.record.opened period :=
    fun period hlt => h.outside period (.inr hlt)
  refine ⟨h'.sorted, ?_, fun period => ?_, fun period hout => ?_, fun period hout field => ?_,
    fun period hge hlt => ?_, fun period hge hlt hlast field => ?_, ?_, ?_⟩
  · rw [h'.identity, h.identity]
  · -- a period is computed in the one run or in the other
    rw [h'.has, h.has, or_assoc]
    refine or_congr_right ⟨?_, ?_⟩
    · rintro (⟨computed, hge, hlt, hperiod⟩ | ⟨computed, hge, hlt, hperiod⟩)
      · exact ⟨computed, hge, by omega, hperiod⟩
      · exact ⟨computed, by omega, by omega, hperiod⟩
    · rintro ⟨computed, hge, hlt, hperiod⟩
      by_cases hfirst : computed < first + count
      · exact .inl ⟨computed, hge, hfirst, hperiod⟩
      · exact .inr ⟨computed, by omega, by omega, hperiod⟩
  · rw [h'.outside period (by omega), h.outside period (by omega)]
  · rw [h'.kept period (by omega) field, h.kept period (by omega) field]
  · by_cases hfirst : period < first + count
    · rw [hearlier period hfirst]
      exact h.evaluated period hge hfirst
    · exact h'.evaluated period (by omega) (by omega)
  · -- the second run carries into nothing that the first one carried into
    by_cases hfirst : period < first + count
    · rw [h'.kept (period + 1) (by omega) field, h.carriedInto period hge hfirst hlast field,
        hearlier period hfirst]
    · rw [h'.carriedInto period (by omega) (by omega) hlast field,
        hlater (period + 1) (by omega)]
  · -- the rows of the first run can be read off the later record as well
    have hmap : ((List.range' first count).map fun period =>
        (middle.record.opened period).row plan) =
          (List.range' first count).map fun period => (after.record.opened period).row plan :=
      List.map_congr_left fun period hmem => by
        rw [hearlier period (List.mem_range'_1.1 hmem).2]
    rw [h'.rows, h.rows, hmap, List.append_assoc, ← List.map_append, List.range'_append_1]
  · have hfirst : ((List.range' first count).flatMap fun period =>
        (middle.record.opened period).carryEvents plan (before.record.opened (period + 1))) =
          (List.range' first count).flatMap fun period =>
            (after.record.opened period).carryEvents plan (before.record.opened (period + 1)) :=
      List.flatMap_congr fun period hmem => by
        rw [hearlier period (List.mem_range'_1.1 hmem).2]
    have hsecond : ((List.range' (first + count) more).flatMap fun period =>
        (after.record.opened period).carryEvents plan (middle.record.opened (period + 1))) =
          (List.range' (first + count) more).flatMap fun period =>
            (after.record.opened period).carryEvents plan (before.record.opened (period + 1)) :=
      List.flatMap_congr fun period hmem => by
        have hge := (List.mem_range'_1.1 hmem).1
        rw [hlater (period + 1) (by omega)]
    rw [h'.carried, h.carried, hfirst, hsecond, List.append_assoc, ← List.flatMap_append,
      List.range'_append_1]

/-- A run over consecutive periods, by induction on their number. -/
theorem ran_foldl (plan : Plan) (first count : Nat) {computing : Computing}
    (hsorted : computing.record.Sorted) :
    Ran plan first count computing ((List.range' first count).foldl (step plan) computing) := by
  induction count generalizing first computing with
  | zero => exact .zero plan first hsorted
  | succ count ih =>
    have hstep := ran_step plan hsorted first
    rw [List.range'_succ, List.foldl_cons, Nat.add_comm count 1]
    exact hstep.trans (ih (first + 1) hstep.sorted)

/-- The record after a run is that of its periods computed one after the other. -/
theorem record_foldl (plan : Plan) (periods : List Nat) {computing : Computing}
    (hsorted : computing.record.Sorted) :
    (periods.foldl (step plan) computing).record =
      periods.foldl (Record.computePeriod plan) computing.record := by
  induction periods generalizing computing with
  | nil => rfl
  | cons period rest ih =>
    obtain ⟨hrecord, -⟩ := step_eq plan hsorted period
    have hstep : (computing.step plan period).record.Sorted := by
      rw [hrecord]
      exact hsorted.computePeriod plan period
    rw [List.foldl_cons, List.foldl_cons, ih hstep, hrecord]

/-- The run over the periods of a range. -/
def ofRecord (plan : Plan) (record : Record) (range : PeriodRange) : Computing :=
  (range.periods plan.activity.periodCount).foldl (step plan)
    { record, notices := Computation.foreignNotice plan record }

/-- How many periods a range has among those of a plan. -/
def span (plan : Plan) (range : PeriodRange) : Nat :=
  range.stop plan.activity.periodCount + 1 - range.start

/-- Computing a record is a run over the periods of the range. -/
theorem ran_ofRecord (plan : Plan) {record : Record} (hsorted : record.Sorted)
    (range : PeriodRange) :
    Ran plan range.start (span plan range)
      { record, notices := Computation.foreignNotice plan record } (ofRecord plan record range) :=
  ran_foldl plan range.start (span plan range) hsorted

end Computing

namespace Computation

/-- The record of a computation is that of its periods computed one after the other. -/
theorem record_eq_foldl (plan : Plan) {record : Record} (hsorted : record.Sorted)
    (range : PeriodRange) :
    (ofRecord plan record range).record =
      (range.periods plan.activity.periodCount).foldl (Record.computePeriod plan) record :=
  Computing.record_foldl plan _ hsorted

/-- The sheet of a computation can be read off its record. -/
theorem sheet_ofRecord (plan : Plan) {record : Record} (hsorted : record.Sorted)
    (range : PeriodRange) :
    (ofRecord plan record range).sheet =
      .ofRows plan (ofRecord plan record range).record
        ((range.periods plan.activity.periodCount).map fun period =>
          ((ofRecord plan record range).record.opened period).row plan) := by
  have hrows := (Computing.ran_ofRecord plan hsorted range).rows
  exact congrArg (Sheet.ofRows plan (ofRecord plan record range).record) hrows

/-- The events of a computation are those of its periods, one after the other. -/
theorem carried_ofRecord (plan : Plan) {record : Record} (hsorted : record.Sorted)
    (range : PeriodRange) :
    (ofRecord plan record range).carried =
      (range.periods plan.activity.periodCount).flatMap fun period =>
        ((ofRecord plan record range).record.opened period).carryEvents plan
          (record.opened (period + 1)) :=
  (Computing.ran_ofRecord plan hsorted range).carried

/-- A computation changes what a period holds for a field by actions of rules, if at all. -/
theorem exists_run_slot_ofRecord (plan : Plan) {record : Record} (hsorted : record.Sorted)
    (range : PeriodRange) (period : Nat) (field : FieldName) :
    ∃ actions : List CarryAction, (∀ action ∈ actions, action.IsTrimmed) ∧
      ((ofRecord plan record range).record.opened period).slot field =
        CarryAction.run plan.settings.carryPolicy actions ((record.opened period).slot field) := by
  have hran := Computing.ran_ofRecord plan hsorted range
  by_cases hinto : range.start < period ∧ period ≤ range.start + Computing.span plan range ∧
      period ≤ plan.activity.periodCount
  · -- the rules of the period before have the slot within their reach
    obtain ⟨source, rfl⟩ : ∃ source, period = source + 1 := ⟨period - 1, by omega⟩
    have hslot := hran.carriedInto source (by omega) (by omega) (by omega) field
    rw [PeriodEntry.slot_carryInto] at hslot
    exact ⟨_, fun _ => Carrying.isTrimmed_of_mem_actionsFor, hslot⟩
  · refine ⟨[], ?_, hran.kept period hinto field⟩
    rintro _ ⟨⟩

theorem sorted_ofRecord (plan : Plan) {record : Record} (hsorted : record.Sorted)
    (range : PeriodRange) : (ofRecord plan record range).record.Sorted :=
  (Computing.ran_ofRecord plan hsorted range).sorted

theorem ascending_ofRecord (plan : Plan) {record : Record} (hascending : record.Ascending)
    (range : PeriodRange) : (ofRecord plan record range).record.Ascending := by
  rw [record_eq_foldl plan hascending.sorted range]
  generalize range.periods plan.activity.periodCount = periods
  induction periods generalizing record with
  | nil => exact hascending
  | cons period rest ih => exact ih (hascending.computePeriod plan period)

end Computation

end PeriodSheet
