import PeriodSheet.Proofs.Recompute

/-!
# The frame of a computation

What computing a range of periods leaves alone.  A step changes the computed values of its period
and, in the next one, the fields that carry rules carry into; the client, the activity, the year and
the version it never touches.  What each step keeps of a period's entry a run keeps as well
(`opened_computePeriods`), so that a range reaches no further than the period after its last one
(`Computation.ofRecord_frame`).

Here an entry that is kept is kept as it is, with the spelling of its names.
-/

namespace PeriodSheet

/-! ### One field of an entry -/

namespace NameMap

variable {α : Type} {name other : FieldName}

/-- Writing a name leaves the entries of other names as they are spelled. -/
theorem entry?_insert_of_not_same (map : NameMap α) (value : α) (h : name.same other = false) :
    NameMap.entry? (map.insert name value) other = map.entry? other := by
  have key : ∀ entries : List (FieldName × α),
      (insertEntry name value entries).find? (·.1.same other) =
        entries.find? (·.1.same other) := by
    intro entries
    induction entries with
    | nil => simp [insertEntry, h]
    | cons head rest ih =>
      obtain ⟨held, old⟩ := head
      unfold insertEntry
      split
      · simp [h]
      · split
        · -- the entry that takes the value is of the written name
          rename_i heq
          have hheld : held.same other = false :=
            (FieldName.same_congr_left (FieldName.same_iff.2 heq.symm) other).trans h
          simp [hheld]
        · simp only [List.find?_cons, ih]
  exact key map.entries

theorem entry?_erase_of_not_same (map : NameMap α) (h : name.same other = false) :
    NameMap.entry? (map.erase name) other = map.entry? other := by
  simp only [erase, entry?, filter, List.find?_filter]
  congr 1
  funext e
  by_cases he : e.1.same other = true
  · have hname : e.1.same name = false := by
      rw [FieldName.same_congr_left he, FieldName.same_comm, h]
    simp [he, hname]
  · simp [he]

end NameMap

namespace PeriodEntry

/-- Whether an entry holds what another one holds for a field: its raw value and its mark, each as
it is spelled there. -/
structure KeepsField (field : FieldName) (before after : PeriodEntry) : Prop where
  raw : after.raw.entry? field = before.raw.entry? field
  carried : after.carried.entry? field = before.carried.entry? field

theorem KeepsField.refl (field : FieldName) (entry : PeriodEntry) : KeepsField field entry entry :=
  ⟨rfl, rfl⟩

theorem KeepsField.trans {field : FieldName} {a b c : PeriodEntry} (hab : KeepsField field a b)
    (hbc : KeepsField field b c) : KeepsField field a c :=
  ⟨hbc.raw.trans hab.raw, hbc.carried.trans hab.carried⟩

theorem KeepsField.raw? {field : FieldName} {before after : PeriodEntry}
    (h : KeepsField field before after) : after.raw? field = before.raw? field := by
  simp only [PeriodEntry.raw?, NameMap.get?, h.raw]

theorem KeepsField.isCarried {field : FieldName} {before after : PeriodEntry}
    (h : KeepsField field before after) : after.isCarried field = before.isCarried field := by
  simp only [PeriodEntry.isCarried, NameMap.contains_eq_isSome, NameMap.get?, h.carried]

theorem keepsField_receive (entry : PeriodEntry) {field other : FieldName}
    (h : field.same other = false) (value : Option String) :
    KeepsField other entry (entry.receive field value) := by
  cases value with
  | none =>
    exact ⟨NameMap.entry?_erase_of_not_same _ h, NameMap.entry?_erase_of_not_same _ h⟩
  | some text =>
    exact ⟨NameMap.entry?_insert_of_not_same _ _ h, NameMap.entry?_insert_of_not_same _ _ h⟩

end PeriodEntry

/-- The rules leave every field alone that none of them carries into. -/
theorem Carrying.keepsField_ofRules (plan : Plan) (period : Nat) (view : PeriodView)
    (outcome : Outcome) (next : PeriodEntry) {field : FieldName}
    (h : ∀ rule ∈ activeRules plan, rule.destination.same field = false) :
    PeriodEntry.KeepsField field next (ofRules plan period view outcome next).entry := by
  refine List.foldlRecOn
    (motive := fun carrying : Carrying => PeriodEntry.KeepsField field next carrying.entry)
    (activeRules plan) _ (.refl field next) ?_
  intro carrying hkept rule hmem
  obtain ⟨hentry, -⟩ := apply_eq plan.settings period view outcome carrying
    (List.mem_filter.1 hmem).2
  rw [hentry]
  refine hkept.trans ?_
  cases change? plan.settings view outcome carrying.entry rule with
  | none => exact .refl field carrying.entry
  | some value => exact carrying.entry.keepsField_receive (h rule hmem) value

/-! ### A run -/

namespace Record

/-- What no step changes in the entry that a period is opened with, a run does not change. -/
theorem opened_computePeriods {plan : Plan} {R : PeriodEntry → PeriodEntry → Prop}
    (hrefl : ∀ entry, R entry entry) (htrans : ∀ {a b c}, R a b → R b c → R a c) {other : Nat}
    {periods : List Nat}
    (hstep : ∀ period ∈ periods, ∀ record : Record,
      R (record.opened other) ((record.computePeriod plan period).opened other))
    (record : Record) :
    R (record.opened other) ((periods.foldl (computePeriod plan) record).opened other) := by
  induction periods generalizing record with
  | nil => exact hrefl _
  | cons period rest ih =>
    obtain ⟨hhead, hrest⟩ := List.forall_mem_cons.1 hstep
    exact htrans (hhead record) (ih hrest _)

variable {plan : Plan} {periods : List Nat} {other : Nat}

/-- An entry is left alone where its period is not computed and does not come after one that is. -/
theorem opened_computePeriods_of_outside
    (h : ∀ period ∈ periods, other ≠ period ∧
      (other = period + 1 → plan.activity.periodCount ≤ period)) (record : Record) :
    (periods.foldl (computePeriod plan) record).opened other = record.opened other := by
  refine opened_computePeriods (R := fun a b => b = a) (fun _ => rfl)
    (fun hab hbc => hbc.trans hab) (fun period hmem record => ?_) record
  obtain ⟨hne, hlast⟩ := h period hmem
  rw [opened_computePeriod, if_neg hne, if_neg fun ⟨heq, hlt⟩ => Nat.not_lt.2 (hlast heq) hlt]

/-- Only a period that is computed has its computed values changed. -/
theorem computed_computePeriods (h : other ∉ periods) (record : Record) :
    ((periods.foldl (computePeriod plan) record).opened other).computed =
      (record.opened other).computed := by
  refine opened_computePeriods (R := fun a b => b.computed = a.computed) (fun _ => rfl)
    (fun hab hbc => hbc.trans hab) (fun period hmem record => ?_) record
  have hne : other ≠ period := fun heq => h (heq ▸ hmem)
  rw [opened_computePeriod, if_neg hne]
  split
  · exact (Carrying.frame_ofRules plan _ _ _ _).2
  · rfl

/-- Only the period after one that is computed has its raw values and its marks changed. -/
theorem entered_computePeriods
    (h : ∀ period ∈ periods, other = period + 1 → plan.activity.periodCount ≤ period)
    (record : Record) :
    ((periods.foldl (computePeriod plan) record).opened other).raw = (record.opened other).raw ∧
      ((periods.foldl (computePeriod plan) record).opened other).carried =
        (record.opened other).carried := by
  refine opened_computePeriods (R := fun a b => b.raw = a.raw ∧ b.carried = a.carried)
    (fun _ => ⟨rfl, rfl⟩) (fun hab hbc => ⟨hbc.1.trans hab.1, hbc.2.trans hab.2⟩)
    (fun period hmem record => ?_) record
  rw [opened_computePeriod]
  split
  · rename_i heq
    rw [heq]
    exact ⟨rfl, rfl⟩
  · rw [if_neg fun ⟨heq, hlt⟩ => Nat.not_lt.2 (h period hmem heq) hlt]
    exact ⟨rfl, rfl⟩

/-- A field that no rule carries into keeps its raw value and its mark. -/
theorem keepsField_computePeriods {field : FieldName}
    (h : ∀ rule ∈ Carrying.activeRules plan, rule.destination.same field = false)
    (record : Record) :
    PeriodEntry.KeepsField field (record.opened other)
      ((periods.foldl (computePeriod plan) record).opened other) := by
  refine opened_computePeriods (PeriodEntry.KeepsField.refl field) (fun hab hbc => hab.trans hbc)
    (fun period _ record => ?_) record
  rw [opened_computePeriod]
  split
  · rename_i heq
    rw [heq]
    exact ⟨rfl, rfl⟩
  · split
    · exact Carrying.keepsField_ofRules plan _ _ _ _ h
    · exact .refl field _

/-- Sorted records show the same entry of a period where both have one, or both have none, and open
the period with the same one. -/
theorem Sorted.entry?_eq_of_opened {a b : Record} (ha : a.Sorted) (hb : b.Sorted) {period : Nat}
    (hhas : a.Has period ↔ b.Has period) (hopened : a.opened period = b.opened period) :
    a.entry? period = b.entry? period := by
  by_cases h : b.Has period
  · rw [ha.entry?_of_has (hhas.2 h), hb.entry?_of_has h, hopened]
  · rw [entry?_of_not_has fun h' => h (hhas.1 h'), entry?_of_not_has h]

end Record

/-! ### A computation -/

theorem PeriodRange.mem_periods_iff_between {range : PeriodRange} {count period : Nat} :
    period ∈ range.periods count ↔ range.start ≤ period ∧ period ≤ range.stop count := by
  rw [periods, List.mem_range'_1]
  omega

namespace Computation

theorem identity_ofRecord (plan : Plan) (record : Record) (range : PeriodRange) :
    (ofRecord plan record range).record =
      { record with entries := (ofRecord plan record range).record.entries } := by
  refine List.foldlRecOn
    (motive := fun computing : Computing =>
      computing.record = { record with entries := computing.record.entries })
    (range.periods plan.activity.periodCount) (Computing.step plan) rfl ?_
  intro computing hidentity period _
  -- whether there is a next period or not, entries are put into the record
  have hstep : (computing.step plan period).record =
      { computing.record with entries := (computing.step plan period).record.entries } := by
    simp only [Computing.step, Computing.carryOver]
    split
    · rfl
    · split <;> rfl
  rw [hstep, hidentity]

/-- An empty range changes nothing, shows nothing and carries nothing. -/
theorem ofRecord_of_isEmpty {plan : Plan} {range : PeriodRange}
    (h : range.stop plan.activity.periodCount < range.start) (record : Record) :
    (ofRecord plan record range).record = record ∧
      (ofRecord plan record range).sheet.rows = [] ∧
        (ofRecord plan record range).carried = [] := by
  have hnone : range.periods plan.activity.periodCount = [] := by
    rw [PeriodRange.periods, List.range'_eq_nil_iff]
    omega
  unfold ofRecord
  rw [hnone]
  exact ⟨rfl, rfl, rfl⟩

theorem periods_rows_ofRecord (plan : Plan) {record : Record} (hsorted : record.Sorted)
    (range : PeriodRange) :
    (ofRecord plan record range).sheet.rows.map (·.period) =
      range.periods plan.activity.periodCount := by
  rw [sheet_ofRecord plan hsorted]
  simp only [Sheet.ofRows, List.map_map]
  refine (List.map_congr_left fun period _ => ?_).trans (List.map_id _)
  exact Record.period_opened _ period

section Range

variable {plan : Plan} {range : PeriodRange} {record : Record}

/-- A computation adds entries of the periods of its range and of the one after them. -/
theorem has_ofRecord (hsorted : record.Sorted)
    (hle : range.start ≤ range.stop plan.activity.periodCount) (period : Nat) :
    (ofRecord plan record range).record.Has period ↔ record.Has period ∨
      range.start ≤ period ∧
        period ≤ min (range.stop plan.activity.periodCount + 1) plan.activity.periodCount := by
  refine ((Computing.ran_ofRecord plan hsorted range).has period).trans (or_congr_right ?_)
  have hlast : range.stop plan.activity.periodCount ≤ plan.activity.periodCount :=
    Nat.min_le_right _ _
  unfold Computing.span
  constructor
  · rintro ⟨computed, hge, hlt, heq | ⟨heq, hnext⟩⟩ <;> omega
  · rintro ⟨hge, hreached⟩
    by_cases hin : period ≤ range.stop plan.activity.periodCount
    · exact ⟨period, hge, by omega, .inl rfl⟩
    · exact ⟨range.stop plan.activity.periodCount, hle, by omega, .inr (by omega)⟩

/-- A computation leaves the entries of all other periods alone. -/
theorem entry?_ofRecord_of_outside (hsorted : record.Sorted)
    (hle : range.start ≤ range.stop plan.activity.periodCount) {period : Nat}
    (hout : ¬ (range.start ≤ period ∧
      period ≤ min (range.stop plan.activity.periodCount + 1) plan.activity.periodCount)) :
    Record.entry? (ofRecord plan record range).record period = record.entry? period := by
  refine (sorted_ofRecord plan hsorted range).entry?_eq_of_opened hsorted ?_ ?_
  · exact (has_ofRecord hsorted hle period).trans (or_iff_left hout)
  · rw [record_eq_foldl plan hsorted]
    have hlast : range.stop plan.activity.periodCount ≤ plan.activity.periodCount :=
      Nat.min_le_right _ _
    refine Record.opened_computePeriods_of_outside (fun source hsource => ?_) record
    have := PeriodRange.mem_periods_iff_between.1 hsource
    omega

end Range

/-- **The frame of a computation.**  Computing the periods from `first` to `last`:

* leaves the client, the activity, the year and the version of the record alone;
* adds entries of these periods and of the one after them, if there is one, in their places, and
  leaves the entries of all other periods alone;
* leaves what the first period holds alone, apart from its computed values, and in the others, and
  in the one after them, all that is not a destination of an active carry rule;
* leaves the computed values of the period after them alone;
* shows these periods, each in one row, in ascending order.

Where there are no such periods, nothing happens at all. -/
theorem ofRecord_frame (activity : Activity) (settings : Settings) (record : Record)
    (hascending : record.Ascending) (range : PeriodRange) :
    let computation := ofRecord (.ofActivity settings activity) record range
    let computed := computation.record
    let first := range.start
    let last := range.stop activity.periodCount
    let reached := min (last + 1) activity.periodCount
    (first ≤ last →
      (computed.client = record.client ∧ computed.activity = record.activity ∧
        computed.fiscalYear = record.fiscalYear ∧ computed.version = record.version) ∧
      computed.Ascending ∧
      (∀ period, computed.Has period ↔
        record.Has period ∨ first ≤ period ∧ period ≤ reached) ∧
      (∀ period, ¬ (first ≤ period ∧ period ≤ reached) →
        computed.entry? period = record.entry? period) ∧
      ((computed.opened first).raw = (record.opened first).raw ∧
        (computed.opened first).carried = (record.opened first).carried) ∧
      (∀ period, first < period → period ≤ reached → ∀ field,
        (∀ rule ∈ activity.carryRules, rule.isActive = true →
          rule.destination.same field = false) →
        PeriodEntry.KeepsField field (record.opened period) (computed.opened period)) ∧
      (last < activity.periodCount →
        (computed.opened (last + 1)).computed = (record.opened (last + 1)).computed) ∧
      computation.sheet.rows.map (·.period) = List.range' first (last + 1 - first)) ∧
    (last < first →
      computed = record ∧ computation.sheet.rows = [] ∧ computation.carried = []) := by
  intro computation computed first last reached
  let plan := Plan.ofActivity settings activity
  have hfoldl : computed =
      (range.periods activity.periodCount).foldl
        (Record.computePeriod (.ofActivity settings activity)) record :=
    record_eq_foldl _ hascending.sorted range
  refine ⟨fun hle => ⟨?_, ?_, ?_, ?_, ?_, ?_, ?_, ?_⟩, fun hlt => ?_⟩
  · have hidentity : computed = { record with entries := computed.entries } :=
      identity_ofRecord _ record range
    rw [hidentity]
    exact ⟨rfl, rfl, rfl, rfl⟩
  · exact ascending_ofRecord _ hascending range
  · exact @has_ofRecord plan range record hascending.sorted hle
  · exact fun _ => @entry?_ofRecord_of_outside plan range record hascending.sorted hle _
  · rw [hfoldl]
    refine Record.entered_computePeriods (fun period hperiod heq => ?_) record
    have := PeriodRange.mem_periods_iff_between.1 hperiod
    omega
  · intro period _ _ field hfield
    rw [hfoldl]
    refine Record.keepsField_computePeriods (fun rule hrule => ?_) record
    obtain ⟨hmem, hactive⟩ := List.mem_filter.1 hrule
    exact hfield rule hmem hactive
  · intro _
    rw [hfoldl]
    refine Record.computed_computePeriods (fun hperiod => ?_) record
    have := PeriodRange.mem_periods_iff_between.1 hperiod
    omega
  · exact periods_rows_ofRecord _ hascending.sorted range
  · exact ofRecord_of_isEmpty hlt record

/-- Computing the first half-year only.  The second one, of which the record has no entry yet, gets
one that is not computed, and in which nothing stands but what a rule may carry there. -/
theorem ofRecord_frame_first_half_year :
    let activity := Credits.activity [Credits.creditRule]
    let entered : Record :=
      { client := 42
        activity := 1
        fiscalYear := some 2025
        version := 7
        entries := [{ period := 1, raw := NameMap.empty.insert Credits.paid "300" }] }
    let range : PeriodRange := ⟨1, some 1⟩
    let computation := ofRecord (.ofActivity {} activity) entered range
    entered.Ascending ∧ range.start ≤ range.stop activity.periodCount ∧
      (∀ rule ∈ activity.carryRules, rule.isActive = true →
        rule.destination.same Credits.due = false) ∧
      computation.record.version = 7 ∧ computation.record.Has 2 ∧
      (computation.record.opened 1).raw = NameMap.empty.insert Credits.paid "300" ∧
      NameMap.entry? (computation.record.opened 2).raw Credits.due = none ∧
      (computation.record.opened 2).computed = .empty ∧
      computation.sheet.rows.map (·.period) = [1] := by
  intro activity entered range computation
  have hascending : entered.Ascending := by decide
  have hrules : ∀ rule ∈ activity.carryRules, rule.isActive = true →
      rule.destination.same Credits.due = false := by decide
  obtain ⟨⟨-, -, -, hversion⟩, -, hhas, -, ⟨hfirst, -⟩, hnext, hlater, hrows⟩ :=
    (ofRecord_frame activity {} entered hascending range).1 (by decide)
  exact ⟨hascending, by decide, hrules, hversion, (hhas 2).2 (.inr (by decide)), hfirst,
    (hnext 2 (by decide) (by decide) Credits.due hrules).raw, hlater (by decide), hrows⟩

end Computation

end PeriodSheet
