import PeriodSheet.Proofs.DefinitionOrder
import PeriodSheet.Proofs.Frame
import PeriodSheet.Proofs.Receiving

/-!
# Names that do not count

A record may keep texts under names that mean nothing to its activity any more: of fields that were
switched off or renamed, or that a formula fills in by now.  None of them reaches the sheet, where a
field tells whether a period is complete.

* **`PeriodEntry.LooksLike`** says that two entries differ in such texts at most.  A run does not
  keep the marks of such names alike, since a rule may carry into a field that is switched off; so
  only the marks of active fields count.
* Entries that look alike have the same view and the same row (`LooksLike.view`, `LooksLike.row`),
  and what is carried into them looks alike again (`LooksLike.ofRules`), as no rule of a savable
  activity carries into a calculated field.
* So two runs stay alike step by step (`Computing.Alike.step`), and show the same
  (`Computation.ofRecord_inert`).
-/

namespace PeriodSheet

namespace PeriodEntry

/-! ### Entries that look alike -/

/-- Two entries differ at most in raw values of names that are not those of active fields that the
user fills in. -/
structure Agrees (activity : Activity) (a b : PeriodEntry) : Prop where
  period : a.period = b.period
  raw : ∀ field ∈ activity.activeFields, field.isCalculated = false →
    a.raw.get? field.name = b.raw.get? field.name
  computed : a.computed.Same b.computed
  carried : a.carried.Same b.carried

/-- Two entries hold the same for every active field, the raw texts of calculated ones aside. -/
structure LooksLike (activity : Activity) (a b : PeriodEntry) : Prop where
  period : a.period = b.period
  computed : a.computed.Same b.computed
  carried : ∀ field ∈ activity.activeFields, a.isCarried field.name = b.isCarried field.name
  slot : ∀ field ∈ activity.activeFields, field.isCalculated = false →
    a.slot field.name = b.slot field.name

theorem Agrees.looksLike {activity : Activity} {a b : PeriodEntry} (h : a.Agrees activity b) :
    a.LooksLike activity b where
  period := h.period
  computed := h.computed
  carried field _ := h.carried.contains field.name
  slot field hfield hentered := by
    simp only [PeriodEntry.slot, h.raw field hfield hentered, isCarried,
      h.carried.contains field.name]

namespace LooksLike

variable {activity : Activity} {settings : Settings} {a b : PeriodEntry}

theorem refl (activity : Activity) (entry : PeriodEntry) : entry.LooksLike activity entry :=
  ⟨rfl, fun _ => rfl, fun _ _ => rfl, fun _ _ _ => rfl⟩

theorem raw? (h : a.LooksLike activity b) {field : Field} (hfield : field ∈ activity.activeFields)
    (hentered : field.isCalculated = false) : a.raw? field.name = b.raw? field.name := by
  rw [raw?_eq_shown, raw?_eq_shown, h.slot field hfield hentered]

theorem withComputed (h : a.LooksLike activity b) (computed : NameMap String) :
    LooksLike activity { a with computed } { b with computed } :=
  ⟨h.period, fun _ => rfl, h.carried, h.slot⟩

/-- The texts of active fields that the user fills in are all that a view is made of. -/
theorem view {x y : Option PeriodEntry} (h : Option.Rel (LooksLike activity) x y) :
    PeriodView.ofFields activity.activeFields x = PeriodView.ofFields activity.activeFields y := by
  refine List.foldl_ext _ _ _ fun view field hmem => ?_
  obtain ⟨hfield, hentered⟩ := List.mem_filter.1 hmem
  rw [Bool.not_eq_true'] at hentered
  have htext : PeriodView.textOf? x field = PeriodView.textOf? y field := by
    cases h with
    | none => rfl
    | some h =>
      simp only [PeriodView.textOf?, Option.bind_some]
      rw [h.raw? hfield hentered]
  simp only [PeriodView.add, htext]

/-- A period whose completeness a field tells has the same row. -/
theorem row (h : a.LooksLike activity b) (hcomputed : a.computed = b.computed)
    (hcompletion : ∃ field ∈ activity.activeFields, field.isCompletionIndicator = true)
    (period : Nat) (view : PeriodView) (outcome : Outcome) :
    ComputedPeriod.row (.ofActivity settings activity) ⟨period, view, outcome, a⟩ =
      ComputedPeriod.row (.ofActivity settings activity) ⟨period, view, outcome, b⟩ := by
  have heffective : ∀ field, ComputedPeriod.effective? ⟨period, view, outcome, a⟩ field =
      ComputedPeriod.effective? ⟨period, view, outcome, b⟩ field := by
    intro field
    simp only [ComputedPeriod.effective?, computed?, hcomputed]
  have hcell : ∀ field ∈ activity.activeFields,
      ComputedPeriod.cell activity.colourRules ⟨period, view, outcome, a⟩ field =
        ComputedPeriod.cell activity.colourRules ⟨period, view, outcome, b⟩ field := by
    intro field hfield
    have hraw : (if field.isCalculated then none else a.raw? field.name) =
        if field.isCalculated then none else b.raw? field.name := by
      split
      · rfl
      · next hentered => exact h.raw? hfield (Bool.eq_false_iff.2 hentered)
    simp only [ComputedPeriod.cell, ComputedPeriod.cellStyle, ComputedPeriod.error?, heffective,
      hraw, computed?, hcomputed, h.carried field hfield]
  -- there is a field that tells whether the period is complete, and it is active
  have hcomplete : ComputedPeriod.isComplete ⟨period, view, outcome, a⟩ activity.completionField? =
      ComputedPeriod.isComplete ⟨period, view, outcome, b⟩ activity.completionField? := by
    obtain ⟨flagged, hmem, hflagged⟩ := hcompletion
    obtain ⟨hmem, hactive⟩ := Activity.mem_activeFields_iff.1 hmem
    cases hfound : activity.completionField? with
    | none =>
      have hnone := List.find?_eq_none.1 hfound flagged hmem
      simp [Activity.isCompletion, hactive, hflagged] at hnone
    | some field =>
      have hcompletes := List.find?_some hfound
      simp only [Activity.isCompletion, Bool.and_eq_true] at hcompletes
      have hfield : field ∈ activity.activeFields :=
        Activity.mem_activeFields_iff.2 ⟨List.mem_of_find?_eq_some hfound, hcompletes.1⟩
      simp only [ComputedPeriod.isComplete, heffective]
      split
      · rfl
      · next hentered => rw [h.raw? hfield (Bool.eq_false_iff.2 hentered)]
  have hcells : (activity.activeFields.filter (·.isVisibleIn period)).map
      (ComputedPeriod.cell activity.colourRules ⟨period, view, outcome, a⟩) =
        (activity.activeFields.filter (·.isVisibleIn period)).map
          (ComputedPeriod.cell activity.colourRules ⟨period, view, outcome, b⟩) :=
    List.map_congr_left fun field hmem => hcell field (List.mem_filter.1 hmem).1
  simp only [ComputedPeriod.row, Plan.ofActivity, ComputedPeriod.values, heffective, hcells,
    hcomplete]

/-- What is carried into entries that look alike looks alike. -/
theorem ofRules (hsavable : activity.savable = true) (h : a.LooksLike activity b) (period : Nat)
    (view : PeriodView) (outcome : Outcome) :
    LooksLike activity
      (Carrying.ofRules (.ofActivity settings activity) period view outcome a).entry
      (Carrying.ofRules (.ofActivity settings activity) period view outcome b).entry := by
  have hframe (entry : PeriodEntry) :=
    Carrying.frame_ofRules (.ofActivity settings activity) period view outcome entry
  have hslot (entry : PeriodEntry) :=
    Carrying.slot_ofRules (.ofActivity settings activity) period view outcome entry
  refine ⟨?_, ?_, fun field hfield => ?_, fun field hfield hentered => ?_⟩
  · rw [(hframe a).1, (hframe b).1, h.period]
  · rw [(hframe a).2, (hframe b).2]
    exact h.computed
  · cases hcalculated : field.isCalculated with
    | false =>
      refine congrArg Slot.isCarried ((hslot a field.name).trans (Eq.trans ?_
        (hslot b field.name).symm))
      rw [h.slot field hfield hcalculated]
    | true =>
      -- no rule carries into the field, whose mark stays
      have hnone : Carrying.actionsFor (.ofActivity settings activity) view outcome field.name =
          [] := by
        rw [Carrying.actionsFor, List.map_eq_nil_iff, List.filter_eq_nil_iff]
        intro rule hrule hinto
        have hdestination := Activity.destination_of_savable hsavable
          (List.mem_filter.1 hrule).1 hfield ((FieldName.same_comm _ _).trans hinto)
        rw [hcalculated] at hdestination
        exact Bool.noConfusion hdestination.1
      have hkept (entry : PeriodEntry) : (Carrying.ofRules (.ofActivity settings activity) period
          view outcome entry).entry.isCarried field.name = entry.isCarried field.name := by
        have hslot := hslot entry field.name
        rw [hnone] at hslot
        exact congrArg Slot.isCarried hslot
      rw [hkept, hkept, h.carried field hfield]
  · rw [hslot, hslot, h.slot field hfield hentered]

end LooksLike

end PeriodEntry

/-! ### Runs over entries that look alike -/

namespace Record

theorem forall₂_entry? {R : PeriodEntry → PeriodEntry → Prop}
    (hperiod : ∀ {a b}, R a b → a.period = b.period) {a b : Record}
    (h : List.Forall₂ R a.entries b.entries) (period : Nat) :
    Option.Rel R (a.entry? period) (b.entry? period) := by
  unfold entry?
  generalize a.entries = l, b.entries = m at h
  induction h with
  | nil => exact .none
  | cons hhead _ ih =>
    rw [List.find?_cons, List.find?_cons, hperiod hhead]
    split
    · exact .some hhead
    · exact ih

end Record

namespace Computing

variable {activity : Activity} {settings : Settings} {a b : Computing}

/-- Two runs have come to the same rows, and to entries that look alike. -/
structure Alike (activity : Activity) (a b : Computing) : Prop where
  entries : List.Forall₂ (PeriodEntry.LooksLike activity) a.record.entries b.record.entries
  rows : a.rows = b.rows

namespace Alike

theorem put (h : Alike activity a b) {c d : PeriodEntry} (hchanged : c.LooksLike activity d) :
    List.Forall₂ (PeriodEntry.LooksLike activity) (a.record.put c).entries
      (b.record.put d).entries :=
  Record.forall₂_putEntry (·.period) hchanged h.entries

theorem opened (h : Alike activity a b) (period : Nat) :
    (a.record.opened period).LooksLike activity (b.record.opened period) :=
  Record.forall₂_openEntry (·.period) (.refl activity _) h.entries

theorem carryOver (settings : Settings) (hsavable : activity.savable = true)
    (h : Alike activity a b) (period : Nat) (view : PeriodView) (outcome : Outcome) :
    Alike activity (a.carryOver (.ofActivity settings activity) period view outcome)
      (b.carryOver (.ofActivity settings activity) period view outcome) := by
  unfold Computing.carryOver
  split
  · exact ⟨h.put ((h.opened (period + 1)).ofRules hsavable period view outcome), h.rows⟩
  · split <;> exact ⟨h.entries, h.rows⟩

/-- A step sees the same view, computes the same values from it and carries alike. -/
theorem step (hsavable : activity.savable = true)
    (hcompletion : ∃ field ∈ activity.activeFields, field.isCompletionIndicator = true)
    (h : Alike activity a b) (period : Nat) :
    Alike activity (a.step (.ofActivity settings activity) period)
      (b.step (.ofActivity settings activity) period) := by
  have hview : PeriodView.ofFields activity.activeFields (a.record.entry? period) =
      PeriodView.ofFields activity.activeFields (b.record.entry? period) :=
    PeriodEntry.LooksLike.view (Record.forall₂_entry? (·.period) h.entries period)
  unfold Computing.step
  simp only [Plan.ofActivity] at hview ⊢
  rw [hview]
  generalize PeriodView.ofFields activity.activeFields (b.record.entry? period) = view
  generalize Outcome.ofView _ period view = outcome
  have hevaluated := (h.opened period).withComputed (outcome.texts settings.numberFormat)
  have halike : Alike activity
      { a with
        record := a.record.put { a.record.opened period with
          computed := outcome.texts settings.numberFormat }
        notices := a.notices ++ .computing a.record.client activity.id period :: outcome.notices }
      { b with
        record := b.record.put { b.record.opened period with
          computed := outcome.texts settings.numberFormat }
        notices := b.notices ++ .computing b.record.client activity.id period :: outcome.notices }
      := ⟨h.put hevaluated, h.rows⟩
  have hcarried := halike.carryOver settings hsavable period view outcome
  refine ⟨hcarried.entries, ?_⟩
  exact congrArg₂ _ hcarried.rows (congrArg (fun row => [row])
    (hevaluated.row rfl hcompletion period view outcome))

end Alike

theorem has_carryOver (plan : Plan) (period : Nat) (view : PeriodView) (outcome : Outcome)
    {computing : Computing} {other : Nat} (h : computing.record.Has other) :
    (computing.carryOver plan period view outcome).record.Has other := by
  unfold carryOver
  split
  · exact (Record.has_put _ _ _).2 (.inr h)
  · split <;> exact h

/-- A step leaves an entry of its period behind, and the entries that there are. -/
theorem has_step (plan : Plan) (computing : Computing) {period other : Nat}
    (h : other = period ∨ computing.record.Has other) :
    (computing.step plan period).record.Has other := by
  refine has_carryOver plan period _ _ ((Record.has_put _ _ _).2 (h.imp_left fun heq => ?_))
  exact heq.trans (computing.record.period_opened period).symm

theorem has_foldl (plan : Plan) {periods : List Nat} {computing : Computing} {other : Nat}
    (h : other ∈ periods ∨ computing.record.Has other) :
    (periods.foldl (step plan) computing).record.Has other := by
  induction periods generalizing computing with
  | nil => exact h.resolve_left List.not_mem_nil
  | cons period rest ih =>
    refine ih ?_
    rcases h with h | h
    · exact (List.mem_cons.1 h).symm.imp_right fun heq => has_step plan computing (.inl heq)
    · exact .inr (has_step plan computing (.inr h))

end Computing

/-! ### Records that agree -/

/-- Two records agree but for raw values of names that are not those of active fields that the user
fills in. -/
structure Record.Agrees (schema : Activity) (a b : Record) : Prop where
  client : a.client = b.client
  activity : a.activity = b.activity
  fiscalYear : a.fiscalYear = b.fiscalYear
  version : a.version = b.version
  entries : List.Forall₂ (PeriodEntry.Agrees schema) a.entries b.entries

namespace Computation

/-- Each period of the range shows an entry after the run. -/
theorem exists_entry?_ofRecord (plan : Plan) (record : Record) {range : PeriodRange} {period : Nat}
    (h : period ∈ range.periods plan.activity.periodCount) :
    ∃ entry, (ofRecord plan record range).record.entry? period = some entry := by
  obtain ⟨entry, hmem, hperiod⟩ : (ofRecord plan record range).record.Has period :=
    Computing.has_foldl plan (.inl h)
  rw [← Option.isSome_iff_exists, Record.entry?, List.find?_isSome]
  exact ⟨entry, hmem, beq_iff_eq.2 hperiod⟩

/-- **Names that do not count are inert.**  Where a savable activity has an active field that tells
whether a period is complete, records that agree but for the raw values of inactive, calculated and
unknown names come to the same sheet, and to the same computed values in every period of the
range. -/
theorem ofRecord_inert (activity : Activity) (settings : Settings) (range : PeriodRange)
    (a b : Record) (hsavable : activity.savable = true)
    (hcompletion : ∃ field ∈ activity.activeFields, field.isCompletionIndicator = true)
    (hagree : a.Agrees activity b) :
    let plan := Plan.ofActivity settings activity
    let computationA := ofRecord plan a range
    let computationB := ofRecord plan b range
    computationA.sheet = computationB.sheet ∧
      ∀ period ∈ range.periods activity.periodCount, ∃ entryA entryB,
        computationA.record.entry? period = some entryA ∧
          computationB.record.entry? period = some entryB ∧
            entryA.computed.Same entryB.computed := by
  intro plan computationA computationB
  have hrun : Computing.Alike activity (Computing.ofRecord plan a range)
      (Computing.ofRecord plan b range) := by
    have hentries : List.Forall₂ (PeriodEntry.LooksLike activity) a.entries b.entries :=
      hagree.entries.imp fun _ _ h => h.looksLike
    exact List.foldl_rel (r := Computing.Alike activity) ⟨hentries, rfl⟩
      fun period _ _ _ h => h.step hsavable hcompletion period
  constructor
  · have hrows : computationA.sheet.rows = computationB.sheet.rows := hrun.rows
    have hrecordA := identity_ofRecord plan a range
    have hrecordB := identity_ofRecord plan b range
    change Sheet.ofRows plan computationA.record computationA.sheet.rows =
      Sheet.ofRows plan computationB.record computationB.sheet.rows
    rw [hrows, hrecordA, hrecordB]
    simp only [Sheet.ofRows, hagree.client, hagree.fiscalYear]
  · intro period hperiod
    obtain ⟨entryA, hentryA⟩ := exists_entry?_ofRecord plan a hperiod
    obtain ⟨entryB, hentryB⟩ := exists_entry?_ofRecord plan b hperiod
    refine ⟨entryA, entryB, hentryA, hentryB, ?_⟩
    have hentries : Option.Rel (PeriodEntry.LooksLike activity)
        (computationA.record.entry? period) (computationB.record.entry? period) :=
      Record.forall₂_entry? (·.period) hrun.entries period
    rw [hentryA, hentryB] at hentries
    cases hentries with
    | some h => exact h.computed

end Computation

/-! ### Credits with leftovers -/

namespace Credits

def settled : FieldName := ⟨"Settled", "settled", by decide, by decide⟩

def bonus : FieldName := ⟨"Bonus", "bonus", by decide, by decide⟩

def settledFields : List Field :=
  [ .calculated credit "[Paid] - [Due] + [Previous]",
    .entered due .decimal,
    .entered paid .decimal,
    .entered previous .decimal,
    { Field.entered settled .boolean with isCompletionIndicator := true } ]

/-- The activity with these fields and one that is switched off, into which the credit is carried
as well. -/
def settledActivity : Activity :=
  .periodic 1 "Credits"
    { name := "Half-years"
      periodCount := 2
      labels := ["H1", "H2"]
      fields := settledFields ++ [{ Field.entered bonus .decimal with isActive := false }]
      carryRules := [creditRule, { id := 3, origin := credit, destination := bonus }] }

theorem activeFields_settledActivity : settledActivity.activeFields = settledFields := by
  have hordered : (settledActivity.fields.filter (·.isActive)).Pairwise
      (fun a b => a.displaysBefore b = true) := by
    decide +kernel
  exact Activity.activeFields_of_ordered hordered

end Credits

/-- A record keeps texts of the credit, which is calculated, of the bonus, which is switched off,
and of a name that the activity does not know; it comes to what a record without them comes to. -/
theorem Computation.ofRecord_inert_credits :
    let activity := Credits.settledActivity
    let fresh := Credits.record "300" .empty .empty
    let leftovers : NameMap String := ((NameMap.empty.insert Credits.credit "7").insert
      Credits.bonus "8").insert Credits.share "9"
    let littered := Credits.record "300" leftovers .empty
    let plan := Plan.ofActivity {} activity
    activity.savable = true ∧
      (∃ field ∈ activity.activeFields, field.isCompletionIndicator = true) ∧
      littered.Agrees activity fresh ∧ ¬ littered.Same fresh ∧
      (ofRecord plan littered .all).sheet = (ofRecord plan fresh .all).sheet := by
  intro activity fresh leftovers littered plan
  have hsavable : activity.savable = true := by decide +kernel
  have hcompletion : ∃ field ∈ activity.activeFields, field.isCompletionIndicator = true := by
    rw [Credits.activeFields_settledActivity]
    decide
  have hagree : littered.Agrees activity fresh := by
    have hraw : ∀ field ∈ activity.activeFields, field.isCalculated = false →
        leftovers.get? field.name = NameMap.empty.get? field.name := by
      rw [Credits.activeFields_settledActivity]
      decide +kernel
    exact ⟨rfl, rfl, rfl, rfl, .cons ⟨rfl, fun _ _ _ => rfl, fun _ => rfl, fun _ => rfl⟩
      (.cons ⟨rfl, hraw, fun _ => rfl, fun _ => rfl⟩ .nil)⟩
  refine ⟨hsavable, hcompletion, hagree, ?_,
    (ofRecord_inert activity {} .all littered fresh hsavable hcompletion hagree).1⟩
  -- the second half-year keeps a text of the bonus
  rintro ⟨-, -, -, -, hentries⟩
  obtain - | ⟨-, hentries⟩ := hentries
  obtain - | ⟨hentry, -⟩ := hentries
  exact absurd (hentry.raw Credits.bonus) (by decide)

end PeriodSheet
