import PeriodSheet.Proofs.DerivedValues
import PeriodSheet.Proofs.Frame
import PeriodSheet.Proofs.View

/-!
# What completes a period

A row is complete where its period shows a raw value that completes it: one of the completion field
that is valid there, or any one where the activity has no such field (`isComplete_row_iff`).  Who
wrote that value is not asked.  A text that a carry rule wrote completes a period like one that a
user typed, and the badge is then taken from it.

Carry rules write into their destinations only, and mark what they write.  Where none of them
carries into a field that counts, and the record has no marks there, a complete period shows a value
that a user entered (`Computation.ofRecord_isComplete`).
-/

namespace PeriodSheet

/-! ### Raw values that complete a period -/

/-- Whether raw values of a name can complete a period: those of the completion field, or all of
them where there is no such field. -/
def Activity.Counts (activity : Activity) (name : FieldName) : Prop :=
  ∀ completion ∈ activity.completionField?, completion.name.same name = true

instance (activity : Activity) (name : FieldName) : Decidable (activity.Counts name) :=
  inferInstanceAs (Decidable (∀ completion ∈ _, _))

/-- Whether the raw value of a name completes the period of an entry.  That of a completion field
has to be valid there. -/
def PeriodEntry.CompletedBy (activity : Activity) (entry : PeriodEntry) (name : FieldName) : Prop :=
  ∃ text, entry.raw? name = some text ∧ activity.Counts name ∧
    (activity.completionField?.isSome = true → ∀ field ∈ activity.activeFields,
      field.isCalculated = false → field.name.same name = true → field.Accepts text)

theorem PeriodEntry.CompletedBy.counts {activity : Activity} {entry : PeriodEntry}
    {name : FieldName} (h : entry.CompletedBy activity name) : activity.Counts name := by
  obtain ⟨_, -, hcounts, -⟩ := h
  exact hcounts

/-- A name is written if a field of that name writes it. -/
theorem NameMap.contains_foldl_write {α : Type} (write : Field → Option α) (fields : List Field)
    (map : NameMap α) (name : FieldName) :
    (fields.foldl (fun map field => (write field).elim map (map.insert field.name)) map).contains
        name = true ↔
      (∃ field ∈ fields, field.name.same name = true ∧ (write field).isSome = true) ∨
        map.contains name = true := by
  induction fields generalizing map with
  | nil => simp
  | cons field rest ih =>
    have hwritten : ((write field).elim map (map.insert field.name)).contains name = true ↔
        (field.name.same name = true ∧ (write field).isSome = true) ∨
          map.contains name = true := by
      cases write field with
      | none => simp
      | some value => simp
    rw [List.foldl_cons, ih, hwritten, ← or_assoc]
    refine or_congr_left ?_
    rw [or_comm, List.exists_mem_cons_iff]

namespace PeriodEntry

variable {settings : Settings} {activity : Activity}

theorem raw?_congr (entry : PeriodEntry) {a b : FieldName} (h : a.same b = true) :
    entry.raw? a = entry.raw? b := by
  rw [raw?_eq_shown, raw?_eq_shown, entry.slot_congr h]

/-- A raw text is valid where every field of its name that the user fills in accepts it. -/
theorem invalid_view_iff (entry : PeriodEntry) {name : FieldName} {text : String}
    (h : entry.raw? name = some text) :
    (entry.view (.ofActivity settings activity)).invalid.contains name = false ↔
      ∀ field ∈ activity.activeFields, field.isCalculated = false →
        field.name.same name = true → field.Accepts text := by
  have hwrites : ∀ field : Field, field.name.same name = true →
      ((field.textError? entry).isSome = true ↔ ¬ field.Accepts text) :=
    fun field hsame => Field.isSome_textError?_iff ((entry.raw?_congr hsame).trans h)
  rw [Activity.view_ofActivity, PeriodView.foldl_add, Bool.eq_false_iff, ne_eq,
    NameMap.contains_foldl_write, NameMap.contains_empty]
  simp only [Bool.false_eq_true, or_false, not_exists, not_and]
  constructor
  · intro hnone field hactive hentered hsame
    have hkept : field ∈ activity.activeFields.filter (!·.isCalculated) :=
      List.mem_filter.2 ⟨hactive, by simp [hentered]⟩
    by_contra hrejected
    exact hnone field hkept hsame ((hwrites field hsame).2 hrejected)
  · intro hvalid field hkept hsame hwritten
    obtain ⟨hactive, hentered⟩ := List.mem_filter.1 hkept
    exact (hwrites field hsame).1 hwritten
      (hvalid field hactive (by simpa using hentered) hsame)

/-- **A period is complete where some raw value completes it.** -/
theorem isComplete_row_iff (entry : PeriodEntry)
    (h : ∀ completion ∈ activity.completionField?, completion.isCalculated = false) :
    (entry.row (.ofActivity settings activity)).isComplete = true ↔
      ∃ name, entry.CompletedBy activity name := by
  change ComputedPeriod.isComplete ⟨_, entry.view (.ofActivity settings activity), _, entry⟩
    activity.completionField? = true ↔ _
  unfold CompletedBy Activity.Counts ComputedPeriod.isComplete
  cases hfield : activity.completionField? with
  | none =>
    simp only [List.any_eq_true, Option.mem_def, reduceCtorEq, false_implies, implies_true,
      Option.isSome_none, Bool.false_eq_true, and_true]
    constructor
    · rintro ⟨e, hmem, hshown⟩
      refine ⟨e.1, e.2, ?_⟩
      rw [raw?, NameMap.get?_of_mem hmem]
      exact Option.filter_some_pos hshown
    · rintro ⟨name, text, hraw⟩
      obtain ⟨hget, hshown⟩ := Option.filter_eq_some_iff.1 hraw
      obtain ⟨e, hmem, -, rfl⟩ := NameMap.exists_mem_of_get? hget
      exact ⟨e, hmem, hshown⟩
  | some completion =>
    have hentered := h completion hfield
    simp only [hentered, Bool.false_eq_true, if_false, Bool.and_eq_true, Bool.not_eq_true',
      Option.isSome_iff_exists, Option.mem_def, Option.some.injEq, forall_eq', Option.isSome_some,
      forall_const]
    constructor
    · rintro ⟨⟨text, hraw⟩, hvalid⟩
      exact ⟨completion.name, text, hraw, FieldName.same_refl _,
        (entry.invalid_view_iff hraw).1 hvalid⟩
    · rintro ⟨name, text, hraw, hsame, hvalid⟩
      rw [← entry.raw?_congr hsame] at hraw
      refine ⟨⟨text, hraw⟩, (entry.invalid_view_iff hraw).2 ?_⟩
      intro field hactive hfree hname
      exact hvalid field hactive hfree ((FieldName.same_congr_right hsame field.name).symm.trans
        hname)

end PeriodEntry

/-! ### Values that a user entered -/

theorem Slot.IsDerived.not_isManual {slot : Slot} (h : slot.IsDerived) : ¬ slot.IsManual := by
  rintro ⟨hshown, hunmarked⟩
  rcases h.1 with hmarked | hnone
  · rw [hunmarked] at hmarked
    cases hmarked
  · simp [Slot.shown, hnone] at hshown

/-- What is a user's after a run was there before. -/
theorem Computation.slot_eq_of_isManual (plan : Plan) {record : Record} (hsorted : record.Sorted)
    (range : PeriodRange) {period : Nat} {field : FieldName}
    (h : (((ofRecord plan record range).record.opened period).slot field).IsManual) :
    ((ofRecord plan record range).record.opened period).slot field =
      (record.opened period).slot field := by
  obtain ⟨actions, htrimmed, hslot⟩ := exists_run_slot_ofRecord plan hsorted range period field
  rw [hslot] at h ⊢
  -- the rules either leave the slot alone or make it their own
  exact (CarryAction.run_cases _ htrimmed _).resolve_right fun hderived => hderived.1.not_isManual h

/-- The badge is that of a complete row. -/
theorem Sheet.exists_complete_of_badgeOf? {result : Option Field} {rows : List Row} {badge : Badge}
    (h : badgeOf? result rows = some badge) :
    ∃ row ∈ rows, row.period = badge.period ∧ row.isComplete = true := by
  simp only [badgeOf?, Option.bind_eq_bind, Option.bind_eq_some_iff] at h
  obtain ⟨field, -, row, hrow, cell, -, h⟩ := h
  have hcomplete := List.find?_some hrow
  refine ⟨row, List.mem_reverse.1 (List.mem_of_find?_eq_some hrow), ?_, hcomplete⟩
  split at h
  · cases h
  · simp only [Option.bind_eq_some_iff] at h
    obtain ⟨value, -, number, -, h⟩ := h
    cases h
    rfl

namespace Computation

/-- **What completes a period, and whose value it is.**  Take an activity whose completion field, if
it has one, is not calculated, and a row that is computed from sorted records.

* It is complete where a raw value of its entry completes it, be that a user's or carried.
* A value that is not marked as carried is a user's: the record had it, unmarked, before.
* So the row is complete by a user's value, if at all, except where every value that completes it is
  marked.
* That exception does not arise where no active rule carries into a field that counts and the record
  marks none of those in that period.
* The badge is that of a complete row. -/
theorem ofRecord_isComplete (activity : Activity) (settings : Settings) (record : Record)
    (hsorted : record.Sorted) (range : PeriodRange)
    (hentered : ∀ completion ∈ activity.completionField?, completion.isCalculated = false) :
    let computation := ofRecord (.ofActivity settings activity) record range
    (∀ row ∈ computation.sheet.rows, ∃ entry,
      computation.record.entry? row.period = some entry ∧
      (row.isComplete = true ↔ ∃ name, entry.CompletedBy activity name) ∧
      (∀ name text, entry.raw? name = some text → entry.isCarried name = false →
        (record.opened row.period).raw? name = some text ∧
          (record.opened row.period).isCarried name = false) ∧
      ((row.isComplete = true →
          ∃ name, entry.CompletedBy activity name ∧ entry.isCarried name = false) ↔
        ¬ ((∃ name, entry.CompletedBy activity name) ∧
          ∀ name, entry.CompletedBy activity name → entry.isCarried name = true)) ∧
      ((∀ rule ∈ activity.carryRules, rule.isActive = true → ¬ activity.Counts rule.destination) →
        (∀ name, activity.Counts name → (record.opened row.period).isCarried name = false) →
          row.isComplete = true →
            ∃ name, entry.CompletedBy activity name ∧ entry.isCarried name = false)) ∧
    ∀ badge, computation.sheet.badge = some badge →
      ∃ row ∈ computation.sheet.rows, row.period = badge.period ∧ row.isComplete = true := by
  intro computation
  let plan := Plan.ofActivity settings activity
  refine ⟨fun row hrow => ?_, fun badge hbadge => Sheet.exists_complete_of_badgeOf? hbadge⟩
  obtain ⟨entry, rfl, hopened, hentry⟩ := exists_entry_of_mem_rows hsorted hrow
  have hcomplete : (entry.row plan).isComplete = true ↔ ∃ name, entry.CompletedBy activity name :=
    entry.isComplete_row_iff hentered
  refine ⟨entry, hentry, hcomplete, fun name text hraw hfree => ?_, ?_,
    fun hrules hmarks hrow => ?_⟩
  · have hmanual : (entry.slot name).IsManual := by
      refine ⟨?_, hfree⟩
      rw [← PeriodEntry.raw?_eq_shown, hraw]
      rfl
    rw [← hopened] at hmanual
    have hslot := slot_eq_of_isManual plan hsorted range hmanual
    rw [hopened] at hslot
    exact ⟨(congrArg Slot.shown hslot).symm.trans hraw,
      (congrArg Slot.isCarried hslot).symm.trans hfree⟩
  · rw [hcomplete]
    simp only [not_and, not_forall, Bool.not_eq_true, exists_prop]
  · obtain ⟨name, hname⟩ := hcomplete.1 hrow
    -- no rule carries into the field that completes the row
    have hfree : ∀ rule ∈ Carrying.activeRules plan, rule.destination.same name = false := by
      intro rule hmem
      obtain ⟨hrule, hactive⟩ := List.mem_filter.1 hmem
      rw [Bool.eq_false_iff]
      intro hsame
      refine hrules rule hrule hactive fun completion hcompletion => ?_
      rw [FieldName.same_congr_right hsame]
      exact hname.counts completion hcompletion
    have hkept : PeriodEntry.KeepsField name (record.opened entry.period) entry := by
      rw [← hopened, Record.period_opened, record_eq_foldl plan hsorted range]
      exact Record.keepsField_computePeriods hfree record
    exact ⟨name, hname, hkept.isCarried.trans (hmarks name hname.counts)⟩

/-- Without rules, a payment completes the first half-year, and it is a user's. -/
theorem ofRecord_isComplete_credits :
    let activity := Credits.activity []
    let entered := Credits.record "300" .empty .empty
    let computation := ofRecord (.ofActivity {} activity) entered .all
    entered.Sorted ∧
      (∀ completion ∈ activity.completionField?, completion.isCalculated = false) ∧
      ∃ row ∈ computation.sheet.rows, row.isComplete = true ∧
        ∃ entry, computation.record.entry? row.period = some entry ∧
          ∃ name, entry.CompletedBy activity name ∧ entry.isCarried name = false := by
  intro activity entered computation
  have hplan : Plan.ofActivity {} activity = Credits.plan [] := Credits.plan_eq _
  have hsorted : entered.Sorted := by decide
  have hentered : ∀ completion ∈ activity.completionField?, completion.isCalculated = false := by
    decide
  have hcomplete : ∃ row ∈ computation.sheet.rows,
      row.isComplete = true ∧ (entered.opened row.period).carried = .empty := by
    simp only [computation, hplan]
    decide +kernel
  obtain ⟨row, hrow, hcomplete, hmarks⟩ := hcomplete
  obtain ⟨hrows, -⟩ := ofRecord_isComplete activity {} entered hsorted .all hentered
  obtain ⟨entry, hentry, -, -, -, huser⟩ := hrows row hrow
  refine ⟨hsorted, hentered, row, hrow, hcomplete, entry, hentry, huser (by decide) ?_ hcomplete⟩
  intro name _
  rw [PeriodEntry.isCarried, hmarks]
  rfl

end Computation

/-! ### Credits that complete -/

namespace Credits

/-- The activity in which the previous credit completes a half-year, the credit is its result, and a
positive credit moves on. -/
def completing : Activity :=
  .periodic 1 "Credits"
    { name := "Half-years"
      periodCount := 2
      labels := ["H1", "H2"]
      fields := [
        { Field.calculated credit "[Paid] - [Due] + [Previous]" with isResultIndicator := true },
        .entered due .decimal,
        .entered paid .decimal,
        { Field.entered previous .decimal with isCompletionIndicator := true }]
      carryRules := [creditRule] }

end Credits

/-- **A carried value completes a period.**  Nothing but a carried credit stands in the second
half-year, which is complete all the same and provides the badge. -/
theorem Computation.ofRecord_isComplete_of_carried :
    let entered := Credits.record "300" .empty .empty
    let computation := ofRecord (.ofActivity {} Credits.completing) entered .all
    entered.Sorted ∧
      (∀ completion ∈ Credits.completing.completionField?, completion.isCalculated = false) ∧
      (computation.sheet.row? 2).map (·.isComplete) = some true ∧
      computation.sheet.badge.map (·.period) = some 2 ∧
      ∃ entry, computation.record.entry? 2 = some entry ∧
        ∀ name, (entry.raw? name).isSome = true → entry.isCarried name = true := by
  intro entered computation
  have hplan : Plan.ofActivity {} Credits.completing =
      .ofFields {} Credits.completing (Credits.completing.fields.filter (·.isActive)) :=
    Plan.ofActivity_of_ordered (by decide +kernel)
  have hcarried : ∃ entry, computation.record.entry? 2 = some entry ∧
      entry.raw = NameMap.empty.insert Credits.previous "300" ∧
      entry.carried = NameMap.empty.insert Credits.previous () := by
    have hentry : (computation.record.entry? 2).map (fun entry => (entry.raw, entry.carried)) =
        some (NameMap.empty.insert Credits.previous "300",
          NameMap.empty.insert Credits.previous ()) := by
      simp only [computation, hplan]
      decide +kernel
    obtain ⟨entry, hentry, hparts⟩ := Option.map_eq_some_iff.1 hentry
    exact ⟨entry, hentry, Prod.mk.inj hparts⟩
  obtain ⟨entry, hentry, hraw, hmarks⟩ := hcarried
  refine ⟨by decide, by decide +kernel, ?_, ?_, entry, hentry, fun name hshown => ?_⟩
  · simp only [computation, hplan]
    decide +kernel
  · simp only [computation, hplan]
    decide +kernel
  · -- the one raw value is the marked one
    rw [PeriodEntry.isCarried, hmarks, NameMap.contains_insert]
    rw [PeriodEntry.raw?, hraw, NameMap.get?_insert] at hshown
    split at hshown
    · rename_i hsame
      rw [hsame, Bool.true_or]
    · cases hshown

end PeriodSheet
