import PeriodSheet.Proofs.Recompute

/-!
# What a user entered

Under the policy that preserves manual values, a run changes no slot that holds a user's value
(`slot_ofRecord_of_manual`).  Since such a slot then still holds a user's value, this goes on over
any number of runs, over any ranges.
-/

namespace PeriodSheet.Computation

/-- The record after computing it over some ranges, one after the other. -/
def recordAfter (plan : Plan) (record : Record) (ranges : List PeriodRange) : Record :=
  ranges.foldl (fun computed range => (ofRecord plan computed range).record) record

theorem slot_ofRecord_of_manual {plan : Plan}
    (hpolicy : plan.settings.carryPolicy = .preserveManual) {record : Record}
    (hsorted : record.Sorted) (range : PeriodRange) {period : Nat} {field : FieldName}
    (hmanual : ((record.opened period).slot field).IsManual) :
    ((ofRecord plan record range).record.opened period).slot field =
      (record.opened period).slot field := by
  obtain ⟨actions, -, hslot⟩ := exists_run_slot_ofRecord plan hsorted range period field
  rw [hslot, hpolicy, CarryAction.run_manual hmanual]

/-- Runs that preserve manual values keep each slot that holds one. -/
theorem slot_recordAfter_of_manual (plan : Plan)
    (hpolicy : plan.settings.carryPolicy = .preserveManual) {record : Record}
    (hsorted : record.Sorted) (ranges : List PeriodRange) {period : Nat} {field : FieldName}
    (hmanual : ((record.opened period).slot field).IsManual) :
    ((recordAfter plan record ranges).opened period).slot field =
      (record.opened period).slot field := by
  induction ranges generalizing record with
  | nil => rfl
  | cons range rest ih =>
    have hslot := slot_ofRecord_of_manual hpolicy hsorted range hmanual
    exact (ih (sorted_ofRecord plan hsorted range) (hslot ▸ hmanual)).trans hslot

theorem sorted_recordAfter (plan : Plan) {record : Record} (hsorted : record.Sorted)
    (ranges : List PeriodRange) {period : Nat} (hhas : record.Has period) :
    (recordAfter plan record ranges).Sorted ∧ (recordAfter plan record ranges).Has period := by
  induction ranges generalizing record with
  | nil => exact ⟨hsorted, hhas⟩
  | cons range rest ih =>
    refine ih (sorted_ofRecord plan hsorted range) ?_
    exact ((Computing.ran_ofRecord plan hsorted range).has period).2 (.inl hhas)

/-- **Manual input is never touched.**  Where manual values are preserved, a text that a user
entered in a period is there unchanged, and unmarked, after any runs over any ranges. -/
theorem manual_kept (activity : Activity) (settings : Settings)
    (hpolicy : settings.carryPolicy = .preserveManual) (record : Record)
    (hsorted : record.Sorted) (period : Nat) (field : FieldName) (entry : PeriodEntry)
    (text : String) (hentry : record.entry? period = some entry)
    (htext : entry.raw? field = some text) (hmanual : entry.isCarried field = false)
    (ranges : List PeriodRange) :
    ∃ kept, Record.entry? (recordAfter (.ofActivity settings activity) record ranges) period =
        some kept ∧
      kept.raw? field = some text ∧ kept.isCarried field = false := by
  have hhas := Record.has_of_entry? hentry
  have hopened : record.opened period = entry := by
    have hshown := hsorted.entry?_of_has hhas
    exact Option.some.inj (hshown.symm.trans hentry)
  have hslot : ((record.opened period).slot field).IsManual := by
    rw [hopened]
    exact ⟨by rw [← PeriodEntry.raw?_eq_shown, htext]; rfl, hmanual⟩
  obtain ⟨hsorted', hhas'⟩ :=
    sorted_recordAfter (.ofActivity settings activity) hsorted ranges hhas
  have hkept := slot_recordAfter_of_manual (.ofActivity settings activity) hpolicy hsorted ranges
    hslot
  rw [hopened] at hkept
  refine ⟨_, hsorted'.entry?_of_has hhas', ?_, ?_⟩
  · rw [PeriodEntry.raw?_eq_shown, hkept, ← PeriodEntry.raw?_eq_shown, htext]
  · exact (congrArg Slot.isCarried hkept).trans hmanual

/-- A credit that was entered by hand stays, although a rule carries another one into its field. -/
theorem manual_kept_credits :
    let manual := NameMap.empty.insert Credits.previous "50"
    let plan := Plan.ofActivity {} (Credits.activity [Credits.creditRule])
    let entered := Credits.record "300" manual .empty
    entered.Sorted ∧ entered.entry? 2 = some { period := 2, raw := manual } ∧
      ∃ kept, Record.entry? (recordAfter plan entered [.all, ⟨1, some 1⟩]) 2 = some kept ∧
        kept.raw? Credits.previous = some "50" ∧ kept.isCarried Credits.previous = false := by
  intro manual plan entered
  have hsorted : entered.Sorted := by decide
  have hentry : entered.entry? 2 = some { period := 2, raw := manual } := by decide
  exact ⟨hsorted, hentry, manual_kept (Credits.activity [Credits.creditRule]) {} rfl entered hsorted
    2 Credits.previous _ "50" hentry (by decide) (by decide) _⟩

end PeriodSheet.Computation
