import Mathlib.Data.Nat.Init
import PeriodSheet.Proofs.Recompute

/-!
# Carried values are derived data

What a record comes to when it is computed over all its periods, told from what the user entered
alone.  Two records with the same input may differ in what earlier runs carried; from period to
period, a run brings such slots to one and the same value, unless the origins of all rules that
carry into them failed: a failed origin leaves the value of an earlier run in place
(`ofRecord_same_iff`).
-/

namespace PeriodSheet

open Text

/-! ### What was entered -/

namespace PeriodEntry

/-- The entry with what the user entered, and with nothing else. -/
def entered (entry : PeriodEntry) : PeriodEntry :=
  { period := entry.period
    raw := entry.raw.filter fun field _ => !entry.isCarried field }

theorem get?_raw_entered (entry : PeriodEntry) (field : FieldName) :
    entry.entered.raw.get? field =
      if entry.isCarried field then none else entry.raw.get? field := by
  have hkeep : ∀ {a b : FieldName}, a.same b = true →
      (!entry.isCarried a) = !entry.isCarried b := by
    intro a b h
    rw [show entry.isCarried a = entry.isCarried b from
      congrArg Slot.isCarried (entry.slot_congr h)]
  rw [entered, NameMap.get?_filter entry.raw hkeep]
  cases entry.isCarried field <;> rfl

/-- Whether the texts that are marked as carried are written as carry rules write them, without
white space around them. -/
def CarriesTrimmed (entry : PeriodEntry) : Prop :=
  ∀ e ∈ entry.raw.toList, entry.isCarried e.1 = true → isBlankText e.2 = true ∨ trim e.2 = e.2

instance (entry : PeriodEntry) : Decidable entry.CarriesTrimmed :=
  inferInstanceAs (Decidable (∀ e ∈ _, _ → _))

/-- A slot that is marked is derived, where carried texts are trimmed. -/
theorem CarriesTrimmed.isDerived {entry : PeriodEntry} (h : entry.CarriesTrimmed)
    {field : FieldName} (hcarried : entry.isCarried field = true) :
    (entry.slot field).IsDerived := by
  refine ⟨.inl hcarried, fun text htext => ?_⟩
  obtain ⟨hget, hshown⟩ := Option.filter_eq_some_iff.1 htext
  obtain ⟨e, hmem, hname, rfl⟩ := NameMap.exists_mem_of_get? hget
  have hmarked : entry.isCarried e.1 = true := by
    rw [show entry.isCarried e.1 = entry.isCarried field from
      congrArg Slot.isCarried (entry.slot_congr hname)]
    exact hcarried
  rcases h e hmem hmarked with hblank | htrim
  · rw [hblank] at hshown
    cases hshown
  · exact htrim

/-- Slots of entries with the same input agree, or both are derived. -/
theorem slot_eq_or_isDerived {a b : PeriodEntry} (ha : a.CarriesTrimmed) (hb : b.CarriesTrimmed)
    (hsame : a.entered.Same b.entered) (field : FieldName) :
    a.slot field = b.slot field ∨ (a.slot field).IsDerived ∧ (b.slot field).IsDerived := by
  have hraw := hsame.raw field
  rw [get?_raw_entered, get?_raw_entered] at hraw
  have hempty : ∀ entry : PeriodEntry, entry.raw.get? field = none →
      (entry.slot field).IsDerived := by
    intro entry hnone
    refine ⟨.inr hnone, fun text htext => ?_⟩
    simp [slot, Slot.shown, hnone] at htext
  -- a slot that is not marked in one entry and is in the other holds no text in the former
  cases hma : a.isCarried field <;> cases hmb : b.isCarried field <;>
    simp only [hma, hmb, Bool.false_eq_true, if_false, if_true] at hraw
  · left
    simp only [slot, hraw, hma, hmb]
  · exact .inr ⟨hempty a hraw, hb.isDerived hmb⟩
  · exact .inr ⟨ha.isDerived hma, hempty b hraw.symm⟩
  · exact .inr ⟨ha.isDerived hma, hb.isDerived hmb⟩

end PeriodEntry

namespace Record

/-- The record with what the user entered, and with nothing else. -/
def entered (record : Record) : Record :=
  { record with entries := record.entries.map PeriodEntry.entered }

/-- A record fits an activity where its periods ascend and exist, and values are carried only into
the destinations of rules, and into periods that have one before them. -/
structure Fits (activity : Activity) (record : Record) : Prop where
  ascending : record.Ascending
  exist : ∀ entry ∈ record.entries, 1 ≤ entry.period ∧ entry.period ≤ activity.periodCount
  carried : ∀ entry ∈ record.entries, ∀ mark ∈ entry.carried.toList, 1 < entry.period ∧
    ∃ rule ∈ activity.carryRules, rule.isActive = true ∧ rule.destination.same mark.1 = true

/-- Whether all carried texts of a record are trimmed. -/
def CarriesTrimmed (record : Record) : Prop :=
  ∀ entry ∈ record.entries, entry.CarriesTrimmed

instance (record : Record) : Decidable record.CarriesTrimmed :=
  inferInstanceAs (Decidable (∀ entry ∈ _, _))

theorem CarriesTrimmed.opened {record : Record} (h : record.CarriesTrimmed) (period : Nat) :
    (record.opened period).CarriesTrimmed := by
  rcases record.opened_mem_or_blank period with hmem | hblank
  · exact h _ hmem
  · rw [hblank]
    intro e he
    cases he

/-- Records with the same input are opened with entries of the same input. -/
theorem same_entered_opened {a b : Record} (h : a.entered.Same b.entered) (period : Nat) :
    (a.opened period).entered.Same (b.opened period).entered := by
  have hentries := h.entries
  simp only [entered, List.forall₂_map_left_iff, List.forall₂_map_right_iff] at hentries
  exact forall₂_openEntry (R := fun a b => a.entered.Same b.entered) (·.period) (.refl _) hentries

/-- Nothing is carried into the first period of a record that fits. -/
theorem Fits.isCarried_first {activity : Activity} {record : Record} (h : record.Fits activity)
    (field : FieldName) : (record.opened 1).isCarried field = false := by
  rw [Bool.eq_false_iff]
  intro hcarried
  rcases record.opened_mem_or_blank 1 with hmem | hblank
  · obtain ⟨mark, hmark, -⟩ := List.any_eq_true.1 hcarried
    have hlater := (h.carried _ hmem mark hmark).1
    rw [record.period_opened] at hlater
    exact Nat.lt_irrefl 1 hlater
  · rw [hblank] at hcarried
    cases hcarried

theorem Fits.slot_first {activity : Activity} {a b : Record} (ha : a.Fits activity)
    (hb : b.Fits activity) (hsame : a.entered.Same b.entered) (field : FieldName) :
    (a.opened 1).slot field = (b.opened 1).slot field := by
  have hraw := (same_entered_opened hsame 1).raw field
  rw [PeriodEntry.get?_raw_entered, PeriodEntry.get?_raw_entered, ha.isCarried_first field,
    hb.isCarried_first field] at hraw
  simpa only [PeriodEntry.slot, ha.isCarried_first field, hb.isCarried_first field,
    Slot.mk.injEq, and_true, Bool.false_eq_true, if_false] using hraw

/-- A period renews a field of the next one where the origin of some rule that carries into the
field did not fail. -/
def Renews (plan : Plan) (record : Record) (period : Nat) (field : FieldName) : Prop :=
  ∃ rule ∈ plan.activity.carryRules, rule.isActive = true ∧
    rule.destination.same field = true ∧
    ((record.opened period).outcome plan).failures.contains rule.origin = false

end Record

/-! ### Two runs -/

namespace Computation

theorem span_all (plan : Plan) : Computing.span plan .all = plan.activity.periodCount := by
  simp [Computing.span, PeriodRange.all, PeriodRange.stop, PeriodRange.start]

/-- Computing all periods of a record that fits gives it exactly the periods of the activity. -/
theorem has_ofRecord_all {plan : Plan} {record : Record} (h : record.Fits plan.activity)
    (period : Nat) :
    (ofRecord plan record .all).record.Has period ↔
      1 ≤ period ∧ period ≤ plan.activity.periodCount := by
  have hhas := (Computing.ran_ofRecord plan h.ascending.sorted .all).has period
  rw [span_all] at hhas
  refine hhas.trans ⟨?_, fun hlt => ?_⟩
  · -- the periods that were there exist, and so do those that were computed
    rintro (⟨entry, hmem, rfl⟩ | ⟨computed, hge, hlt, hperiod⟩)
    · exact h.exist entry hmem
    · change 1 ≤ computed at hge
      change computed < 1 + plan.activity.periodCount at hlt
      omega
  · refine .inr ⟨period, hlt.1, ?_, .inl rfl⟩
    change period < 1 + plan.activity.periodCount
    omega

theorem slot_ofRecord_first (plan : Plan) {record : Record} (hsorted : record.Sorted)
    (field : FieldName) :
    ((ofRecord plan record .all).record.opened 1).slot field = (record.opened 1).slot field :=
  (Computing.ran_ofRecord plan hsorted .all).kept 1 (fun h => Nat.lt_irrefl 1 h.1) field

/-- Computing all periods runs, on the slots of each period but the first, the actions that the
period before sets out. -/
theorem slot_ofRecord_next (plan : Plan) {record : Record} (hsorted : record.Sorted) {period : Nat}
    (hge : 1 ≤ period) (hlt : period < plan.activity.periodCount) (field : FieldName) :
    let entry := (ofRecord plan record .all).record.opened period
    ((ofRecord plan record .all).record.opened (period + 1)).slot field =
      CarryAction.run plan.settings.carryPolicy
        (Carrying.actionsFor plan (entry.view plan) (entry.outcome plan) field)
        ((record.opened (period + 1)).slot field) := by
  have hrange : period < PeriodRange.all.start + Computing.span plan .all := by
    rw [span_all]
    change period < 1 + plan.activity.periodCount
    omega
  have hslot := (Computing.ran_ofRecord plan hsorted .all).carriedInto period hge hrange hlt field
  rwa [PeriodEntry.slot_carryInto] at hslot

/-- Where each slot that tells two records of the same input apart is renewed in the first run, the
two runs come to the same entries.  By induction on the period: the entries of the first one hold
the same input, and each later one is made of its input and the entry before. -/
theorem opened_same_of_renews {plan : Plan} {a b : Record} (ha : a.Fits plan.activity)
    (hb : b.Fits plan.activity) (hcarryA : a.CarriesTrimmed) (hcarryB : b.CarriesTrimmed)
    (hsame : a.entered.Same b.entered)
    (hrenews : ∀ period, 1 ≤ period → period < plan.activity.periodCount → ∀ field,
      (a.opened (period + 1)).slot field ≠ (b.opened (period + 1)).slot field →
        (ofRecord plan a .all).record.Renews plan period field)
    {period : Nat} (hge : 1 ≤ period) (hle : period ≤ plan.activity.periodCount) :
    ((ofRecord plan a .all).record.opened period).Same
      ((ofRecord plan b .all).record.opened period) := by
  have hsorted := ha.ascending.sorted
  have hsorted' := hb.ascending.sorted
  -- computed entries are told apart by their slots alone
  have hslots : ∀ period, 1 ≤ period → period ≤ plan.activity.periodCount →
      (∀ field, ((ofRecord plan a .all).record.opened period).slot field =
        ((ofRecord plan b .all).record.opened period).slot field) →
      ((ofRecord plan a .all).record.opened period).Same
        ((ofRecord plan b .all).record.opened period) := by
    intro period hge hle hslot
    have hmem : period ∈ PeriodRange.all.periods plan.activity.periodCount :=
      PeriodRange.mem_periods.2 ⟨hge, hle, hge, fun last h => by cases h⟩
    refine PeriodEntry.same_of_evaluated ?_ hslot (settled_ofRecord hsorted hmem).evaluated
      (settled_ofRecord hsorted' hmem).evaluated
    rw [Record.period_opened, Record.period_opened]
  induction period, hge using Nat.le_induction with
  | base =>
    refine hslots 1 (Nat.le_refl 1) hle fun field => ?_
    rw [slot_ofRecord_first plan hsorted, slot_ofRecord_first plan hsorted',
      ha.slot_first hb hsame]
  | succ period hge ih =>
    refine hslots (period + 1) (Nat.le_succ_of_le hge) hle fun field => ?_
    have hentry := ih (Nat.le_of_succ_le hle)
    have hnextA := slot_ofRecord_next plan hsorted hge hle field
    have hnextB := slot_ofRecord_next plan hsorted' hge hle field
    dsimp only at hnextA hnextB
    rw [hnextA, hnextB, ← hentry.view plan, ← hentry.outcome plan]
    -- a slot with the same content is treated alike, another one is renewed
    by_cases hslot : (a.opened (period + 1)).slot field = (b.opened (period + 1)).slot field
    · rw [hslot]
    · have hderived := (PeriodEntry.slot_eq_or_isDerived (hcarryA.opened (period + 1))
        (hcarryB.opened (period + 1)) (Record.same_entered_opened hsame (period + 1))
        field).resolve_left hslot
      exact CarryAction.run_eq_of_derived plan.settings.carryPolicy
        (Carrying.exists_value_actionsFor.2 (hrenews period hge hle field hslot)) hderived.1
        hderived.2

/-- Runs that come to the same entries come to the same record. -/
theorem record_same_of_opened {plan : Plan} {a b : Record} (ha : a.Fits plan.activity)
    (hb : b.Fits plan.activity) (hsame : a.entered.Same b.entered)
    (hopened : ∀ period, 1 ≤ period → period ≤ plan.activity.periodCount →
      ((ofRecord plan a .all).record.opened period).Same
        ((ofRecord plan b .all).record.opened period)) :
    (ofRecord plan a .all).record.Same (ofRecord plan b .all).record := by
  have hidentity : ∀ {record : Record}, record.Fits plan.activity →
      (ofRecord plan record .all).record =
        { record with entries := (ofRecord plan record .all).record.entries } :=
    fun h => (Computing.ran_ofRecord plan h.ascending.sorted .all).identity
  rw [hidentity ha, hidentity hb]
  refine ⟨hsame.client, hsame.activity, hsame.fiscalYear, hsame.version, ?_⟩
  refine Record.forall₂_of_opened (ascending_ofRecord plan ha.ascending .all)
    (ascending_ofRecord plan hb.ascending .all) (fun period => ?_) fun period => ?_
  · exact (has_ofRecord_all ha period).trans (has_ofRecord_all hb period).symm
  · by_cases hperiod : 1 ≤ period ∧ period ≤ plan.activity.periodCount
    · exact hopened period hperiod.1 hperiod.2
    · -- neither run has an entry of the period
      have hblank : ∀ {record : Record}, record.Fits plan.activity →
          (ofRecord plan record .all).record.opened period = .blank period :=
        fun h => Record.opened_of_not_has fun hhas => hperiod ((has_ofRecord_all h period).1 hhas)
      have hentry : ((ofRecord plan a .all).record.opened period).Same
          ((ofRecord plan b .all).record.opened period) := by
        rw [hblank ha, hblank hb]
        exact .refl _
      exact hentry

/-- **Carried values are derived data.**  Two records that fit an activity and hold the same input,
their carried texts being written as rules write them, come to the same sheet and the same record
exactly where each slot that tells them apart is renewed. -/
theorem ofRecord_same_iff (activity : Activity) (settings : Settings) (a b : Record)
    (ha : a.Fits activity) (hb : b.Fits activity) (hcarryA : a.CarriesTrimmed)
    (hcarryB : b.CarriesTrimmed) (hsame : a.entered.Same b.entered) :
    let plan := Plan.ofActivity settings activity
    (ofRecord plan a .all).sheet = (ofRecord plan b .all).sheet ∧
        (ofRecord plan a .all).record.Same (ofRecord plan b .all).record ↔
      ∀ period, 1 ≤ period → period < activity.periodCount → ∀ field,
        (a.opened (period + 1)).slot field ≠ (b.opened (period + 1)).slot field →
          (ofRecord plan a .all).record.Renews plan period field := by
  intro plan
  have hsorted := ha.ascending.sorted
  have hsorted' := hb.ascending.sorted
  constructor
  · rintro ⟨-, hrecord⟩ period hge hlt field hslot
    by_contra hrenews
    -- without a rule that gives it a value, the slot is in both runs what it was
    have hentry := hrecord.opened period
    have hkeep : ∀ action ∈ Carrying.actionsFor plan
        (((ofRecord plan a .all).record.opened period).view plan)
        (((ofRecord plan a .all).record.opened period).outcome plan) field,
        action.value? = none := by
      intro action hmem
      by_contra hvalue
      exact hrenews (Carrying.exists_value_actionsFor.1 ⟨action, hmem, hvalue⟩)
    have hnextA := slot_ofRecord_next plan hsorted hge hlt field
    have hnextB := slot_ofRecord_next plan hsorted' hge hlt field
    dsimp only at hnextA hnextB
    rw [← hentry.view plan, ← hentry.outcome plan, CarryAction.run_of_value?_none _ hkeep] at hnextB
    rw [CarryAction.run_of_value?_none _ hkeep] at hnextA
    exact hslot (hnextA.symm.trans (((hrecord.opened (period + 1)).slot field).trans hnextB))
  · intro hrenews
    have hrecord : (ofRecord plan a .all).record.Same (ofRecord plan b .all).record :=
      record_same_of_opened ha hb hsame fun period hge hle =>
        opened_same_of_renews ha hb hcarryA hcarryB hsame hrenews hge hle
    refine ⟨?_, hrecord⟩
    rw [sheet_ofRecord plan hsorted .all, sheet_ofRecord plan hsorted' .all]
    exact ofRows_congr plan hrecord _

end Computation

/-! ### Plans that can be evaluated -/

namespace Plan

/-- The plan of an activity with these active fields. -/
def ofFields (settings : Settings) (activity : Activity) (fields : List Field) : Plan :=
  let calculated := ReadField.ofFields settings.maxFormulaLength fields
  { activity
    settings
    fields
    graph := ReadField.graph calculated
    steps := stepsOf calculated (ReadField.graph calculated) }

/-- The plan of fields that are listed as they are displayed, in a form that can be evaluated. -/
theorem ofActivity_of_ordered {settings : Settings} {activity : Activity}
    (h : (activity.fields.filter (·.isActive)).Pairwise fun a b => a.displaysBefore b = true) :
    ofActivity settings activity =
      ofFields settings activity (activity.fields.filter (·.isActive)) := by
  unfold ofActivity
  rw [Activity.activeFields_of_ordered h]
  rfl

end Plan

/-! ### Credits from earlier runs -/

namespace Credits

/-- The plan of the activity, in a form that can be evaluated. -/
def plan (rules : List CarryRule) : Plan :=
  let calculated := ReadField.ofFields ({} : Settings).maxFormulaLength fields
  { activity := activity rules
    settings := {}
    fields
    graph := ReadField.graph calculated
    steps := Plan.stepsOf calculated (ReadField.graph calculated) }

theorem plan_eq (rules : List CarryRule) : Plan.ofActivity {} (activity rules) = plan rules := by
  unfold Plan.ofActivity
  rw [activeFields_eq]
  rfl

/-- A record with a payment, in which an earlier run carried a credit. -/
def carried (credit : String) : Record :=
  record "300" (NameMap.empty.insert previous credit) (NameMap.empty.insert previous ())

end Credits

namespace Computation

/-- A credit of an earlier run is renewed, so that the run forgets it. -/
theorem ofRecord_same_credits :
    let stale := Credits.carried "5"
    let fresh := Credits.record "300" .empty .empty
    let activity := Credits.activity [Credits.creditRule]
    let plan := Plan.ofActivity {} activity
    stale.Fits activity ∧ fresh.Fits activity ∧ stale.CarriesTrimmed ∧ fresh.CarriesTrimmed ∧
      stale.entered.Same fresh.entered ∧
      (ofRecord plan stale .all).sheet = (ofRecord plan fresh .all).sheet ∧
      (ofRecord plan stale .all).record.Same (ofRecord plan fresh .all).record := by
  intro stale fresh activity plan
  have hstale : stale.Fits activity := ⟨by decide, by decide, by decide⟩
  have hfresh : fresh.Fits activity := ⟨by decide, by decide, by decide⟩
  have htrimmed : stale.CarriesTrimmed := by decide
  have htrimmed' : fresh.CarriesTrimmed := by decide
  have hsame : stale.entered.Same fresh.entered := .refl _
  refine ⟨hstale, hfresh, htrimmed, htrimmed', hsame, ?_⟩
  refine (ofRecord_same_iff activity {} stale fresh hstale hfresh htrimmed htrimmed' hsame).2 ?_
  intro period hge hlt field hslot
  obtain rfl : period = 1 := Nat.le_antisymm (Nat.lt_succ_iff.1 hlt) hge
  -- the records differ in one field, which the rule carries into
  have hfield : Credits.previous.same field = true := by
    by_contra hdiffer
    have hother : Credits.previous.same field = false := Bool.eq_false_iff.2 hdiffer
    refine hslot ?_
    have hslots : (stale.opened 2).slot field = ⟨none, false⟩ := by
      simp [stale, Credits.carried, Credits.record, Record.opened, Record.openEntry,
        PeriodEntry.slot, PeriodEntry.isCarried, hother]
    rw [hslots]
    rfl
  refine ⟨Credits.creditRule, List.mem_singleton_self _, rfl, hfield, ?_⟩
  have hplan : plan = Credits.plan [Credits.creditRule] := Credits.plan_eq _
  rw [show Plan.ofActivity {} activity = plan from rfl, hplan]
  decide +kernel

/-- **Computing does not forget all earlier runs.**  A failed origin leaves in place what an earlier
run carried, and so does a rule that finds its number there between white space. -/
theorem ofRecord_remembers_credits :
    let fresh := Credits.record "300" .empty .empty
    let stale := Credits.carried "5"
    let padded := Credits.carried " 300 "
    let sharing := Credits.activity [Credits.shareRule]
    let crediting := Credits.activity [Credits.creditRule]
    (sharing.savable = true ∧ stale.Fits sharing ∧ fresh.Fits sharing ∧
      stale.entered.Same fresh.entered ∧
      ¬ (ofRecord (.ofActivity {} sharing) stale .all).record.Same
        (ofRecord (.ofActivity {} sharing) fresh .all).record) ∧
    (crediting.savable = true ∧ padded.Fits crediting ∧ fresh.Fits crediting ∧
      padded.entered.Same fresh.entered ∧
      ¬ (ofRecord (.ofActivity {} crediting) padded .all).record.Same
        (ofRecord (.ofActivity {} crediting) fresh .all).record) := by
  intro fresh stale padded sharing crediting
  refine ⟨⟨by decide +kernel, ⟨by decide, by decide, by decide⟩, ⟨by decide, by decide, by decide⟩,
    .refl _, fun hsame => ?_⟩, ⟨by decide +kernel, ⟨by decide, by decide, by decide⟩,
    ⟨by decide, by decide, by decide⟩, .refl _, fun hsame => ?_⟩⟩
  · rw [show Plan.ofActivity {} sharing = Credits.plan _ from Credits.plan_eq _] at hsame
    exact absurd ((hsame.opened 2).slot Credits.previous) (by decide +kernel)
  · rw [show Plan.ofActivity {} crediting = Credits.plan _ from Credits.plan_eq _] at hsame
    exact absurd ((hsame.opened 2).slot Credits.previous) (by decide +kernel)

end Computation

end PeriodSheet
