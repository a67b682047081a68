import PeriodSheet.Proofs.CarryEvents
import PeriodSheet.Proofs.Frame

/-!
# The input of a run

A run reads the raw values and the marks of entries, and nothing else of them.  The computed values
that an earlier run left there are written over or left alone, but never read
(`Computation.ofRecord_withoutComputed`).  What it makes of a period it makes from the entries up to
that period, so that the later ones do not matter (`Computation.ofRecord_causal`).

Both are told of two runs over the same range.  Where the entries up to some period hold the same
input before the runs, they hold the same input after them (`sameInput_opened`), so that the same
rows are shown of them and the same values are carried out of them.
-/

namespace PeriodSheet

/-! ### Entries of the same input -/

namespace PeriodEntry

/-- The entry without its computed values. -/
def withoutComputed (entry : PeriodEntry) : PeriodEntry :=
  { entry with computed := .empty }

/-- Two entries hold the same input where they are the same, their computed values aside. -/
def SameInput (a b : PeriodEntry) : Prop :=
  a.withoutComputed.Same b.withoutComputed

namespace SameInput

variable {a b : PeriodEntry}

theorem of_slots (hperiod : a.period = b.period) (hslot : ∀ field, a.slot field = b.slot field) :
    a.SameInput b :=
  same_of_slots hperiod hslot fun _ => rfl

theorem period (h : a.SameInput b) : a.period = b.period := by
  have hperiod := Same.period h
  exact hperiod

theorem slot (h : a.SameInput b) (field : FieldName) : a.slot field = b.slot field :=
  Same.slot h field

theorem raw? (h : a.SameInput b) (field : FieldName) : a.raw? field = b.raw? field := by
  rw [raw?_eq_shown, raw?_eq_shown, h.slot field]

theorem view (h : a.SameInput b) (plan : Plan) : a.view plan = b.view plan :=
  view_congr plan h.raw?

theorem outcome (h : a.SameInput b) (plan : Plan) : a.outcome plan = b.outcome plan :=
  outcome_congr plan h.period h.raw?

end SameInput

end PeriodEntry

namespace Record

/-- The record without the computed values of its entries. -/
def withoutComputed (record : Record) : Record :=
  { record with entries := record.entries.map PeriodEntry.withoutComputed }

/-- Records that are the same without their computed values have entries of the same input. -/
theorem sameInput_entries {a b : Record} (h : a.withoutComputed.Same b.withoutComputed) :
    List.Forall₂ PeriodEntry.SameInput a.entries b.entries := by
  have hentries := h.entries
  rwa [withoutComputed, withoutComputed, List.forall₂_map_left_iff,
    List.forall₂_map_right_iff] at hentries

theorem withoutComputed_entries {a b : Record} (h : a.withoutComputed = b.withoutComputed) :
    List.Forall₂ (fun a b => a.withoutComputed = b.withoutComputed) a.entries b.entries := by
  have hentries : a.entries.map PeriodEntry.withoutComputed =
      b.entries.map PeriodEntry.withoutComputed := congrArg (·.entries) h
  rwa [← List.forall₂_eq_eq_eq, List.forall₂_map_left_iff, List.forall₂_map_right_iff] at hentries

end Record

/-! ### Relations that computing respects -/

/-- A relation between entries that computing respects: related entries are of one period and hold
the same in each slot, and they stay related when they are evaluated and when a field receives a
value. -/
structure Computing.Respects (plan : Plan) (R : PeriodEntry → PeriodEntry → Prop) : Prop where
  period : ∀ {a b}, R a b → a.period = b.period
  slot : ∀ {a b}, R a b → ∀ field, a.slot field = b.slot field
  blank : ∀ period, R (.blank period) (.blank period)
  evaluated : ∀ {a b}, R a b → R (a.evaluated plan) (b.evaluated plan)
  receive : ∀ {a b}, R a b → ∀ field value, R (a.receive field value) (b.receive field value)

namespace Computing.Respects

open PeriodEntry

variable {plan : Plan} {R : PeriodEntry → PeriodEntry → Prop}

theorem sameInput_of_related (hR : Respects plan R) {a b : PeriodEntry} (h : R a b) :
    a.SameInput b :=
  .of_slots (hR.period h) (hR.slot h)

/-- The rules make related entries of related ones, and report the same. -/
theorem ofRules (hR : Respects plan R) (period : Nat) (view : PeriodView) (outcome : Outcome)
    {a b : PeriodEntry} (h : R a b) :
    R (Carrying.ofRules plan period view outcome a).entry
        (Carrying.ofRules plan period view outcome b).entry ∧
      (Carrying.ofRules plan period view outcome a).events =
        (Carrying.ofRules plan period view outcome b).events := by
  refine List.foldl_rel (r := fun c d : Carrying => R c.entry d.entry ∧ c.events = d.events)
    ⟨h, rfl⟩ ?_
  rintro rule hrule c d ⟨hentry, hevents⟩
  have hactive := (List.mem_filter.1 hrule).2
  obtain ⟨hentryC, heventsC⟩ :=
    Carrying.apply_eq plan.settings period view outcome c hactive
  obtain ⟨hentryD, heventsD⟩ :=
    Carrying.apply_eq plan.settings period view outcome d hactive
  -- a rule sees its destination's slot, which the two entries share
  have hchange : Carrying.change? plan.settings view outcome c.entry rule =
      Carrying.change? plan.settings view outcome d.entry rule := by
    rw [Carrying.change?, Carrying.change?, hR.slot hentry]
  rw [hentryC, hentryD, heventsC, heventsD, hchange, hevents, hR.period hentry]
  refine ⟨?_, rfl⟩
  cases Carrying.change? plan.settings view outcome d.entry rule with
  | none => exact hentry
  | some value => exact hR.receive hentry rule.destination value

/-- Related entries carry the same into related ones. -/
theorem carryInto (hR : Respects plan R) {a b next next' : PeriodEntry} (h : R a b)
    (hnext : R next next') :
    R (a.carryInto plan next).entry (b.carryInto plan next').entry ∧
      (a.carryInto plan next).events = (b.carryInto plan next').events := by
  have hinput := hR.sameInput_of_related h
  rw [PeriodEntry.carryInto, PeriodEntry.carryInto, hR.period h, hinput.view plan,
    hinput.outcome plan]
  exact hR.ofRules b.period (b.view plan) (b.outcome plan) hnext

theorem carryEvents (hR : Respects plan R) {a b next next' : PeriodEntry} (h : R a b)
    (hnext : R next next') : a.carryEvents plan next = b.carryEvents plan next' := by
  rw [PeriodEntry.carryEvents, PeriodEntry.carryEvents, hR.period h, (hR.carryInto h hnext).2]

/-- Records of related entries have related entries after a period was computed. -/
theorem computePeriod (hR : Respects plan R) {a b : Record}
    (h : List.Forall₂ R a.entries b.entries) (period : Nat) :
    List.Forall₂ R (a.computePeriod plan period).entries
      (b.computePeriod plan period).entries := by
  have hopened (other : Nat) : R (a.opened other) (b.opened other) :=
    Record.forall₂_openEntry hR.period (hR.blank other) h
  have hentry := hR.evaluated (hopened period)
  have hput := Record.forall₂_putEntry hR.period hentry h
  unfold Record.computePeriod
  dsimp only
  split
  · exact Record.forall₂_putEntry hR.period (hR.carryInto hentry (hopened (period + 1))).1 hput
  · exact hput

/-- A run keeps the entries of two records related. -/
theorem ofRecord (hR : Respects plan R) {a b : Record} (ha : a.Sorted) (hb : b.Sorted)
    (h : List.Forall₂ R a.entries b.entries) (range : PeriodRange) :
    List.Forall₂ R (Computation.ofRecord plan a range).record.entries
      (Computation.ofRecord plan b range).record.entries := by
  rw [Computation.record_eq_foldl plan ha, Computation.record_eq_foldl plan hb]
  exact List.foldl_rel (r := fun a b : Record => List.Forall₂ R a.entries b.entries) h
    fun period _ _ _ hrelated => hR.computePeriod hrelated period

end Computing.Respects

namespace PeriodEntry

/-- Computing respects that two entries hold the same input. -/
theorem respects_sameInput (plan : Plan) : Computing.Respects plan SameInput where
  period h := h.period
  slot h := h.slot
  blank _ := Same.refl _
  evaluated h := h
  receive {a b} h field value := by
    have hperiod : ∀ entry : PeriodEntry, (entry.receive field value).period = entry.period :=
      fun entry => by cases value <;> rfl
    refine .of_slots ?_ fun other => ?_
    · rw [hperiod, hperiod, h.period]
    · rw [slot_receive, slot_receive, h.slot other]

/-- Computing respects that two entries are equal, their computed values aside. -/
theorem respects_withoutComputed (plan : Plan) :
    Computing.Respects plan fun a b => a.withoutComputed = b.withoutComputed where
  period h := congrArg (·.period) h
  slot h field := congrArg (·.slot field) h
  blank _ := rfl
  evaluated h := h
  receive {a b} h field value := by
    have hreceive : ∀ entry : PeriodEntry,
        (entry.receive field value).withoutComputed = entry.withoutComputed.receive field value :=
      fun entry => by cases value <;> rfl
    rw [hreceive, hreceive, h]

end PeriodEntry

/-! ### Two runs -/

namespace Computation

variable (plan : Plan) (range : PeriodRange)

/-- A period after a computed one holds what the rules make of its slots there. -/
theorem slot_opened_next {record : Record} (hsorted : record.Sorted) {period : Nat}
    (hperiod : period ∈ range.periods plan.activity.periodCount)
    (hlast : period < plan.activity.periodCount) (field : FieldName) :
    let entry := (ofRecord plan record range).record.opened period
    ((ofRecord plan record range).record.opened (period + 1)).slot field =
      CarryAction.run plan.settings.carryPolicy
        (Carrying.actionsFor plan (entry.view plan) (entry.outcome plan) field)
        ((record.opened (period + 1)).slot field) := by
  obtain ⟨hge, hlt⟩ := List.mem_range'_1.1 hperiod
  have hslot := (Computing.ran_ofRecord plan hsorted range).carriedInto period hge hlt hlast field
  rwa [PeriodEntry.slot_carryInto] at hslot

/-- The rows up to a period are those of the computed periods up to it. -/
theorem filter_rows_ofRecord {record : Record} (hsorted : record.Sorted) (last : Nat) :
    (ofRecord plan record range).sheet.rows.filter (·.period ≤ last) =
      ((range.periods plan.activity.periodCount).filter (· ≤ last)).map fun period =>
        ((ofRecord plan record range).record.opened period).row plan := by
  rw [sheet_ofRecord plan hsorted, Sheet.ofRows, List.filter_map]
  refine congrArg (List.map _) (List.filter_congr fun period _ => ?_)
  exact congrArg (fun shown => decide (shown ≤ last)) (Record.period_opened _ period)

/-- No event of carrying out of a period is left up to that period. -/
theorem filter_carryEvents_eq_nil {entry next : PeriodEntry} {last : Nat}
    (hnext : last < next.period) :
    (entry.carryEvents plan next).filter (·.target ≤ last) = [] := by
  refine List.filter_eq_nil_iff.2 fun event hevent => ?_
  rw [(PeriodEntry.mem_carryEvents hevent).2.2.1, decide_eq_true_eq]
  omega

section TwoRuns

variable {a b : Record} {last : Nat}

/-- Two runs that start from the same input up to a period leave the same input up to there.  By
induction on the period: what is carried into it comes from the period before. -/
theorem sameInput_opened (ha : a.Sorted) (hb : b.Sorted)
    (h : ∀ period ≤ last, (a.opened period).SameInput (b.opened period)) {period : Nat}
    (hle : period ≤ last) :
    ((ofRecord plan a range).record.opened period).SameInput
      ((ofRecord plan b range).record.opened period) := by
  have hperiods : ∀ period, ((ofRecord plan a range).record.opened period).period =
      ((ofRecord plan b range).record.opened period).period := fun period => by
    rw [Record.period_opened, Record.period_opened]
  -- a period that nothing is carried into keeps its slots
  have hkept : ∀ period ≤ last, ¬ (range.start < period ∧
      period ≤ range.start + Computing.span plan range ∧ period ≤ plan.activity.periodCount) →
        ((ofRecord plan a range).record.opened period).SameInput
          ((ofRecord plan b range).record.opened period) := by
    intro period hle hout
    refine .of_slots (hperiods period) fun field => ?_
    have hkeptA := (Computing.ran_ofRecord plan ha range).kept period hout field
    have hkeptB := (Computing.ran_ofRecord plan hb range).kept period hout field
    exact hkeptA.trans (((h period hle).slot field).trans hkeptB.symm)
  induction period with
  | zero => exact hkept 0 hle (by omega)
  | succ period ih =>
    by_cases hinto : period ∈ range.periods plan.activity.periodCount ∧
        period < plan.activity.periodCount
    · obtain ⟨hperiod, hlast⟩ := hinto
      have hbefore := ih (Nat.le_of_succ_le hle)
      refine .of_slots (hperiods (period + 1)) fun field => ?_
      have hnextA := slot_opened_next plan range ha hperiod hlast field
      have hnextB := slot_opened_next plan range hb hperiod hlast field
      dsimp only at hnextA hnextB
      -- the period before sets out the same actions in both runs
      rw [hnextA, hnextB, hbefore.view plan, hbefore.outcome plan, (h (period + 1) hle).slot field]
    · rw [PeriodRange.periods, List.mem_range'_1] at hinto
      exact hkept (period + 1) hle (by unfold Computing.span; omega)

/-- Computed periods of the same input have the same entries. -/
theorem same_opened (ha : a.Sorted) (hb : b.Sorted)
    (h : ∀ period ≤ last, (a.opened period).SameInput (b.opened period)) {period : Nat}
    (hle : period ≤ last) (hperiod : period ∈ range.periods plan.activity.periodCount) :
    ((ofRecord plan a range).record.opened period).Same
      ((ofRecord plan b range).record.opened period) := by
  have hinput := sameInput_opened plan range ha hb h hle
  exact PeriodEntry.same_of_evaluated hinput.period hinput.slot
    (settled_ofRecord ha hperiod).evaluated (settled_ofRecord hb hperiod).evaluated

/-- Computed periods of the same input have the same rows. -/
theorem row_opened (ha : a.Sorted) (hb : b.Sorted)
    (h : ∀ period ≤ last, (a.opened period).SameInput (b.opened period)) {period : Nat}
    (hle : period ≤ last) (hperiod : period ∈ range.periods plan.activity.periodCount) :
    ((ofRecord plan a range).record.opened period).row plan =
      ((ofRecord plan b range).record.opened period).row plan :=
  (same_opened plan range ha hb h hle hperiod).row plan

/-- Computed periods of the same input have the same computed values. -/
theorem computed_opened (ha : a.Sorted) (hb : b.Sorted)
    (h : ∀ period ≤ last, (a.opened period).SameInput (b.opened period)) {period : Nat}
    (hle : period ≤ last) (hperiod : period ∈ range.periods plan.activity.periodCount) :
    ((ofRecord plan a range).record.opened period).computed =
      ((ofRecord plan b range).record.opened period).computed := by
  have houtcome := (sameInput_opened plan range ha hb h hle).outcome plan
  rw [← (settled_ofRecord ha hperiod).evaluated, ← (settled_ofRecord hb hperiod).evaluated,
    PeriodEntry.evaluated, PeriodEntry.evaluated, houtcome]

/-- The same is carried between periods of the same input. -/
theorem carryEvents_opened (ha : a.Sorted) (hb : b.Sorted)
    (h : ∀ period ≤ last, (a.opened period).SameInput (b.opened period)) {period : Nat}
    (hlt : period < last) :
    ((ofRecord plan a range).record.opened period).carryEvents plan (a.opened (period + 1)) =
      ((ofRecord plan b range).record.opened period).carryEvents plan (b.opened (period + 1)) :=
  (PeriodEntry.respects_sameInput plan).carryEvents
    (sameInput_opened plan range ha hb h (Nat.le_of_lt hlt)) (h (period + 1) hlt)

end TwoRuns

/-! ### What is stored -/

section Stored

variable {a b : Record}

/-- Runs over records that are the same without their computed values leave such records. -/
theorem withoutComputed_same (ha : a.Sorted) (hb : b.Sorted)
    (h : a.withoutComputed.Same b.withoutComputed) :
    (ofRecord plan a range).record.withoutComputed.Same
      (ofRecord plan b range).record.withoutComputed := by
  have hentries := (PeriodEntry.respects_sameInput plan).ofRecord ha hb
    (Record.sameInput_entries h) range
  rw [identity_ofRecord plan a range, identity_ofRecord plan b range]
  refine ⟨h.client, h.activity, h.fiscalYear, h.version, ?_⟩
  rwa [Record.withoutComputed, Record.withoutComputed, List.forall₂_map_left_iff,
    List.forall₂_map_right_iff]

/-- Runs over records that are equal without their computed values leave such records. -/
theorem withoutComputed_eq (ha : a.Sorted) (hb : b.Sorted)
    (h : a.withoutComputed = b.withoutComputed) :
    (ofRecord plan a range).record.withoutComputed =
      (ofRecord plan b range).record.withoutComputed := by
  have hentries := (PeriodEntry.respects_withoutComputed plan).ofRecord ha hb
    (Record.withoutComputed_entries h) range
  rw [← List.forall₂_map_right_iff, ← List.forall₂_map_left_iff, List.forall₂_eq_eq_eq] at hentries
  rw [identity_ofRecord plan a range, identity_ofRecord plan b range]
  simp only [Record.withoutComputed, Record.mk.injEq] at h ⊢
  exact ⟨h.1, h.2.1, h.2.2.1, h.2.2.2.1, hentries⟩

/-- Records of one client and year that hold the same input throughout come to the same sheet. -/
theorem sheet_eq_of_sameInput (ha : a.Sorted) (hb : b.Sorted) (hclient : a.client = b.client)
    (hyear : a.fiscalYear = b.fiscalYear)
    (h : ∀ period, (a.opened period).SameInput (b.opened period)) :
    (ofRecord plan a range).sheet = (ofRecord plan b range).sheet := by
  have hrows : ((range.periods plan.activity.periodCount).map fun period =>
      ((ofRecord plan a range).record.opened period).row plan) =
        (range.periods plan.activity.periodCount).map fun period =>
          ((ofRecord plan b range).record.opened period).row plan :=
    List.map_congr_left fun period hperiod =>
      row_opened plan range ha hb (fun other _ => h other) (Nat.le_refl period) hperiod
  rw [sheet_ofRecord plan ha, sheet_ofRecord plan hb, hrows, identity_ofRecord plan a range,
    identity_ofRecord plan b range]
  simp only [Sheet.ofRows, hclient, hyear]

/-- **Stored computed values are never read back.**  Where two records are the same without their
computed values, they come to the same sheet, carry the same, and come to records that are the same
without their computed values; those of the range are then the same as well.  Names that are spelled
alike before are spelled alike after. -/
theorem ofRecord_withoutComputed (activity : Activity) (settings : Settings) (range : PeriodRange)
    (a b : Record) (ha : a.Ascending) (hb : b.Ascending)
    (hsame : a.withoutComputed.Same b.withoutComputed) :
    let plan := Plan.ofActivity settings activity
    let computationA := ofRecord plan a range
    let computationB := ofRecord plan b range
    computationA.sheet = computationB.sheet ∧ computationA.carried = computationB.carried ∧
      computationA.record.withoutComputed.Same computationB.record.withoutComputed ∧
      (∀ period ∈ range.periods activity.periodCount, ∃ entryA entryB,
        computationA.record.entry? period = some entryA ∧
          computationB.record.entry? period = some entryB ∧ entryA.computed = entryB.computed) ∧
      (a.withoutComputed = b.withoutComputed →
        computationA.record.withoutComputed = computationB.record.withoutComputed) := by
  intro plan computationA computationB
  have hinput : ∀ period, (a.opened period).SameInput (b.opened period) := fun period =>
    Record.forall₂_openEntry (R := PeriodEntry.SameInput) (·.period) (PeriodEntry.Same.refl _)
      (Record.sameInput_entries hsame)
  refine ⟨?_, ?_, ?_, fun period hperiod => ?_, fun hequal => ?_⟩
  · exact sheet_eq_of_sameInput plan range ha.sorted hb.sorted hsame.client hsame.fiscalYear hinput
  · have hcarriedA := carried_ofRecord plan ha.sorted range
    have hcarriedB := carried_ofRecord plan hb.sorted range
    refine hcarriedA.trans (Eq.trans ?_ hcarriedB.symm)
    exact List.flatMap_congr fun period _ => carryEvents_opened plan range ha.sorted
      hb.sorted (fun other _ => hinput other) (Nat.lt_succ_self period)
  · exact withoutComputed_same plan range ha.sorted hb.sorted hsame
  · refine ⟨_, _, ?_, ?_, computed_opened plan range ha.sorted hb.sorted
      (fun other _ => hinput other) (Nat.le_refl period) hperiod⟩
    · exact (sorted_ofRecord plan ha.sorted range).entry?_of_has
        (settled_ofRecord ha.sorted hperiod).has
    · exact (sorted_ofRecord plan hb.sorted range).entry?_of_has
        (settled_ofRecord hb.sorted hperiod).has
  · exact withoutComputed_eq plan range ha.sorted hb.sorted hequal

end Stored

/-- A record that keeps a computed credit of an earlier run comes to what one without it comes
to. -/
theorem ofRecord_withoutComputed_credits :
    let activity := Credits.activity [Credits.creditRule]
    let fresh := Credits.record "300" .empty .empty
    let stale := { fresh with entries := fresh.entries.map fun entry =>
      { entry with computed := NameMap.empty.insert Credits.credit "999,00" } }
    let plan := Plan.ofActivity {} activity
    stale.Ascending ∧ fresh.Ascending ∧ stale.withoutComputed.Same fresh.withoutComputed ∧
      (ofRecord plan stale .all).sheet = (ofRecord plan fresh .all).sheet ∧
      (ofRecord plan stale .all).carried = (ofRecord plan fresh .all).carried ∧
      (ofRecord plan stale .all).record.withoutComputed =
        (ofRecord plan fresh .all).record.withoutComputed := by
  intro activity fresh stale plan
  have hstale : stale.Ascending := by decide
  have hfresh : fresh.Ascending := by decide
  have hequal : stale.withoutComputed = fresh.withoutComputed := rfl
  have hsame : stale.withoutComputed.Same fresh.withoutComputed := hequal ▸ .refl _
  obtain ⟨hsheet, hcarried, -, -, hrecord⟩ :=
    ofRecord_withoutComputed activity {} .all stale fresh hstale hfresh hsame
  exact ⟨hstale, hfresh, hsame, hsheet, hcarried, hrecord hequal⟩

/-! ### What comes later -/

/-- **The future never changes the past.**  Where two records hold the same input up to a period, a
missing entry counting as a blank one, they come to the same rows up to that period, and the same
values are carried into these periods. -/
theorem ofRecord_causal (activity : Activity) (settings : Settings) (range : PeriodRange)
    (a b : Record) (ha : a.Sorted) (hb : b.Sorted) (last : Nat)
    (hsame : ∀ period ≤ last, (a.opened period).SameInput (b.opened period)) :
    let plan := Plan.ofActivity settings activity
    (ofRecord plan a range).sheet.rows.filter (·.period ≤ last) =
        (ofRecord plan b range).sheet.rows.filter (·.period ≤ last) ∧
      (ofRecord plan a range).carried.filter (·.target ≤ last) =
        (ofRecord plan b range).carried.filter (·.target ≤ last) := by
  intro plan
  constructor
  · rw [filter_rows_ofRecord plan range ha, filter_rows_ofRecord plan range hb]
    refine List.map_congr_left fun period hmem => ?_
    obtain ⟨hperiod, hle⟩ := List.mem_filter.1 hmem
    exact row_opened plan range ha hb hsame (of_decide_eq_true hle) hperiod
  · rw [carried_ofRecord plan ha, carried_ofRecord plan hb, List.filter_flatMap,
      List.filter_flatMap]
    refine List.flatMap_congr fun period _ => ?_
    by_cases hlt : period < last
    · rw [carryEvents_opened plan range ha hb hsame hlt]
    · -- what is carried out of the period goes beyond the last one
      have hnext : last < period + 1 := by omega
      rw [filter_carryEvents_eq_nil plan (by rwa [Record.period_opened]),
        filter_carryEvents_eq_nil plan (by rwa [Record.period_opened])]

/-- What is known of the second half-year does not change the row of the first one: a record that
has no entry of it yet, and one in which a previous credit was entered there. -/
theorem ofRecord_causal_credits :
    let activity := Credits.activity [Credits.creditRule]
    let later := Credits.record "300" (NameMap.empty.insert Credits.previous "5") .empty
    let early := { later with entries := later.entries.take 1 }
    let plan := Plan.ofActivity {} activity
    early.Sorted ∧ later.Sorted ∧
      (∀ period ≤ 1, (early.opened period).SameInput (later.opened period)) ∧
      (ofRecord plan early .all).sheet.rows.filter (·.period ≤ 1) =
        (ofRecord plan later .all).sheet.rows.filter (·.period ≤ 1) ∧
      (ofRecord plan early .all).carried.filter (·.target ≤ 1) =
        (ofRecord plan later .all).carried.filter (·.target ≤ 1) := by
  intro activity later early plan
  have hearly : early.Sorted := by decide
  have hlater : later.Sorted := by decide
  have hsame : ∀ period ≤ 1, (early.opened period).SameInput (later.opened period) := by
    intro period hle
    have hopened : early.opened period = later.opened period := by
      rcases Nat.le_one_iff_eq_zero_or_eq_one.1 hle with rfl | rfl <;> rfl
    rw [hopened]
    exact PeriodEntry.Same.refl _
  exact ⟨hearly, hlater, hsame, ofRecord_causal activity {} .all early later hearly hlater 1 hsame⟩

end Computation

end PeriodSheet
