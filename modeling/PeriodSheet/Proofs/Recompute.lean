import PeriodSheet.Proofs.Run

/-!
# Recomputing a computed record

Computing a record once more over the same range changes nothing.  A period is *settled* when its
entry holds the values that it comes to and the next entry holds what the rules make of it; a run
leaves all its periods settled, and computing a settled period gives the same record back.

The rows are then read off the same entries.  Events are reported only where rules share a
destination: they may overwrite each other's value in each run anew, and report that.
-/

namespace PeriodSheet

namespace Record

/-- A period of a record is settled when its entry holds the values that it comes to, and the next
entry, where there is one, holds what is carried into it. -/
structure Settled (plan : Plan) (record : Record) (period : Nat) : Prop where
  has : record.Has period
  evaluated : (record.opened period).evaluated plan = record.opened period
  has_next : period < plan.activity.periodCount → record.Has (period + 1)
  carried : period < plan.activity.periodCount → ∀ field,
    ((record.opened period).carryInto plan (record.opened (period + 1))).entry.slot field =
      (record.opened (period + 1)).slot field

theorem Settled.computePeriod_same {plan : Plan} {record : Record} {period : Nat}
    (h : record.Settled plan period) (hsorted : record.Sorted) :
    (record.computePeriod plan period).Same record := by
  unfold computePeriod
  dsimp only
  rw [h.evaluated, hsorted.put_opened h.has]
  split
  · rename_i hlast
    obtain ⟨hperiod, hcomputed⟩ := Carrying.frame_ofRules plan (record.opened period).period
      ((record.opened period).view plan) ((record.opened period).outcome plan)
      (record.opened (period + 1))
    -- what is carried is what the next entry holds already
    refine hsorted.put_same (h.has_next hlast) ?_
    exact PeriodEntry.same_of_slots hperiod (h.carried hlast) fun name =>
      congrArg (·.get? name) hcomputed
  · exact .refl record

theorem computePeriods_same {plan : Plan} {record : Record} (hsorted : record.Sorted)
    {periods : List Nat} (h : ∀ period ∈ periods, record.Settled plan period) :
    (periods.foldl (computePeriod plan) record).Same record := by
  -- stated for records that are the same, since each step gives back such a one only
  have key : ∀ other : Record, other.Same record →
      (periods.foldl (computePeriod plan) other).Same record := by
    induction periods with
    | nil => exact fun _ hother => hother
    | cons period rest ih =>
      intro other hother
      rw [List.foldl_cons]
      refine ih (fun p hp => h p (List.mem_cons_of_mem period hp)) _ ?_
      exact (hother.computePeriod plan period).trans
        ((h period List.mem_cons_self).computePeriod_same hsorted)
  exact key record (.refl record)

end Record

/-- A run leaves its periods settled: to carry once more, out of the same entry, changes nothing. -/
theorem Computing.Ran.settled {plan : Plan} {first count : Nat} {before after : Computing}
    (h : Ran plan first count before after) {period : Nat} (hge : first ≤ period)
    (hlt : period < first + count) : after.record.Settled plan period where
  has := (h.has period).2 (.inr ⟨period, hge, hlt, .inl rfl⟩)
  evaluated := h.evaluated period hge hlt
  has_next hlast := (h.has (period + 1)).2 (.inr ⟨period, hge, hlt, .inr ⟨rfl, hlast⟩⟩)
  carried hlast field := by
    rw [PeriodEntry.slot_carryInto, h.carriedInto period hge hlt hlast, PeriodEntry.slot_carryInto,
      CarryAction.run_run _ fun _ => Carrying.isTrimmed_of_mem_actionsFor]

namespace Computation

theorem settled_ofRecord {plan : Plan} {record : Record} (hsorted : record.Sorted)
    {range : PeriodRange} {period : Nat}
    (h : period ∈ range.periods plan.activity.periodCount) :
    (ofRecord plan record range).record.Settled plan period := by
  obtain ⟨hge, hlt⟩ := List.mem_range'_1.1 h
  exact (Computing.ran_ofRecord plan hsorted range).settled hge hlt

/-- A computed row is that of a settled period. -/
theorem exists_settled_of_mem_rows {plan : Plan} {record : Record} (hsorted : record.Sorted)
    {range : PeriodRange} {row : Row} (h : row ∈ (ofRecord plan record range).sheet.rows) :
    ∃ period, row = ((ofRecord plan record range).record.opened period).row plan ∧
      (ofRecord plan record range).record.Settled plan period := by
  rw [sheet_ofRecord plan hsorted range] at h
  obtain ⟨period, hperiod, rfl⟩ := List.mem_map.1 h
  exact ⟨period, rfl, settled_ofRecord hsorted hperiod⟩

/-- A row can be read off the entry that the computed record shows for its period. -/
theorem exists_entry_of_mem_rows {plan : Plan} {record : Record} (hsorted : record.Sorted)
    {range : PeriodRange} {row : Row} (h : row ∈ (ofRecord plan record range).sheet.rows) :
    ∃ entry : PeriodEntry, row = entry.row plan ∧
      (ofRecord plan record range).record.opened entry.period = entry ∧
      Record.entry? (ofRecord plan record range).record entry.period = some entry := by
  obtain ⟨period, rfl, hsettled⟩ := exists_settled_of_mem_rows hsorted h
  refine ⟨(ofRecord plan record range).record.opened period, rfl, ?_, ?_⟩
  · rw [Record.period_opened]
  · rw [Record.period_opened]
    exact (sorted_ofRecord plan hsorted range).entry?_of_has hsettled.has

theorem record_recompute_same {plan : Plan} {record : Record} (hsorted : record.Sorted)
    (range : PeriodRange) :
    (ofRecord plan (ofRecord plan record range).record range).record.Same
      (ofRecord plan record range).record := by
  have hcomputed := sorted_ofRecord plan hsorted range
  rw [record_eq_foldl plan hcomputed range]
  exact Record.computePeriods_same hcomputed fun _ => settled_ofRecord hsorted

theorem ofRows_congr (plan : Plan) {a b : Record} (h : a.Same b) (periods : List Nat) :
    Sheet.ofRows plan a (periods.map fun period => (a.opened period).row plan) =
      Sheet.ofRows plan b (periods.map fun period => (b.opened period).row plan) := by
  have hrows : (periods.map fun period => (a.opened period).row plan) =
      periods.map fun period => (b.opened period).row plan :=
    List.map_congr_left fun period _ => (h.opened period).row plan
  simp only [Sheet.ofRows, h.client, h.fiscalYear, hrows]

/-- Where each rule has a destination of its own, computing what was computed carries nothing. -/
theorem carried_recompute_eq_nil {plan : Plan} {record : Record} (hsorted : record.Sorted)
    (range : PeriodRange)
    (hdistinct : (Carrying.activeRules plan).Pairwise fun a b =>
      a.destination.same b.destination = false) :
    (ofRecord plan (ofRecord plan record range).record range).carried = [] := by
  rw [carried_ofRecord plan (sorted_ofRecord plan hsorted range), List.flatMap_eq_nil_iff]
  intro period hperiod
  have hsettled := settled_ofRecord hsorted hperiod
  have hsame : (ofRecord plan (ofRecord plan record range).record range).record.Same
      (ofRecord plan record range).record := record_recompute_same hsorted range
  have hentry := hsame.opened period
  unfold PeriodEntry.carryEvents
  split
  · rename_i hlast
    rw [hentry.period, Record.period_opened] at hlast
    -- the second run carries out of the same entry, into an entry that is settled
    have hslot := hsettled.carried hlast
    have hunchanged := Carrying.unchanged_of_slots hdistinct hslot
    rw [PeriodEntry.carryInto, hentry.view plan, hentry.outcome plan]
    exact (Carrying.ofRules_of_unchanged hunchanged).2
  · rfl

/-- **Recomputing is idempotent.**  Computing a computed record over the same range gives the same
record and the same sheet, whatever the fields, the formulas and the rules are, also where several
carry rules share a destination; and where none do, nothing is carried again. -/
theorem ofRecord_idempotent (activity : Activity) (settings : Settings) (range : PeriodRange)
    (record : Record) (hsorted : record.Sorted) :
    let plan := Plan.ofActivity settings activity
    let first := ofRecord plan record range
    let second := ofRecord plan first.record range
    second.record.Same first.record ∧ second.sheet = first.sheet ∧
      ((activity.carryRules.filter (·.isActive)).Pairwise
          (fun a b => a.destination.same b.destination = false) → second.carried = []) := by
  intro plan first second
  have hsame : second.record.Same first.record := record_recompute_same hsorted range
  refine ⟨hsame, ?_, fun hdistinct => carried_recompute_eq_nil hsorted range hdistinct⟩
  calc second.sheet
      = .ofRows plan second.record ((range.periods activity.periodCount).map fun period =>
          (second.record.opened period).row plan) :=
        sheet_ofRecord plan (sorted_ofRecord plan hsorted range) range
    _ = .ofRows plan first.record ((range.periods activity.periodCount).map fun period =>
          (first.record.opened period).row plan) := ofRows_congr plan hsame _
    _ = first.sheet := (sheet_ofRecord plan hsorted range).symm

end Computation

/-- Fields that are listed as they are displayed need not be sorted. -/
theorem Activity.activeFields_of_ordered {activity : Activity}
    (h : (activity.fields.filter (·.isActive)).Pairwise fun a b => a.displaysBefore b = true) :
    activity.activeFields = activity.fields.filter (·.isActive) :=
  List.mergeSort_of_pairwise h

/-! ### Credits

An activity with two half-years.  What was paid beyond what was due is a credit, which may move on
into the next half-year; the share of the due that was paid has no value where nothing is due. -/

namespace Credits

def due : FieldName := ⟨"Due", "due", by decide, by decide⟩

def paid : FieldName := ⟨"Paid", "paid", by decide, by decide⟩

def previous : FieldName := ⟨"Previous", "previous", by decide, by decide⟩

def credit : FieldName := ⟨"Credit", "credit", by decide, by decide⟩

def share : FieldName := ⟨"Share", "share", by decide, by decide⟩

/-- Carries a positive credit on. -/
def creditRule : CarryRule :=
  { id := 1, origin := credit, destination := previous, condition := .ifPositive }

/-- Carries the share on, into the same field. -/
def shareRule : CarryRule :=
  { id := 2, origin := share, destination := previous }

def fields : List Field :=
  [ .calculated credit "[Paid] - [Due] + [Previous]",
    .entered due .decimal,
    .entered paid .decimal,
    .entered previous .decimal,
    .calculated share "[Paid] / [Due]" ]

/-- The activity with some of its rules. -/
def activity (rules : List CarryRule) : Activity :=
  .periodic 1 "Credits"
    { name := "Half-years"
      periodCount := 2
      labels := ["H1", "H2"]
      fields
      carryRules := rules }

theorem activeFields_eq (rules : List CarryRule) : (activity rules).activeFields = fields := by
  have hordered : (fields.filter (·.isActive)).Pairwise
      (fun a b => a.displaysBefore b = true) := by
    decide +kernel
  exact Activity.activeFields_of_ordered hordered

/-- A record with a payment, and with a previous credit in the second half-year. -/
def record (payment : String) (previousCredit : NameMap String) (carried : NameSet) : Record :=
  { client := 42
    activity := 1
    fiscalYear := some 2025
    entries := [
      { period := 1, raw := NameMap.empty.insert paid payment },
      { period := 2, raw := previousCredit, carried := carried }] }

end Credits

/-- Recomputing credits: with two rules that share a destination the record and the sheet stay, and
with one of them nothing is carried again either. -/
theorem Computation.ofRecord_idempotent_credits :
    let entered := Credits.record "300" .empty .empty
    let shared := Plan.ofActivity {} (Credits.activity [Credits.creditRule, Credits.shareRule])
    let single := Plan.ofActivity {} (Credits.activity [Credits.creditRule])
    let first := ofRecord shared entered .all
    entered.Sorted ∧ (ofRecord shared first.record .all).record.Same first.record ∧
      (ofRecord shared first.record .all).sheet = first.sheet ∧
      (ofRecord single (ofRecord single entered .all).record .all).carried = [] := by
  intro entered shared single first
  have hsorted : entered.Sorted := by decide
  obtain ⟨hrecord, hsheet, -⟩ := ofRecord_idempotent
    (Credits.activity [Credits.creditRule, Credits.shareRule]) {} .all entered hsorted
  -- the second rule would share the destination, so that the last part asks for one rule
  obtain ⟨-, -, hcarried⟩ := ofRecord_idempotent
    (Credits.activity [Credits.creditRule]) {} .all entered hsorted
  exact ⟨hsorted, hrecord, hsheet, hcarried (by decide)⟩

end PeriodSheet
