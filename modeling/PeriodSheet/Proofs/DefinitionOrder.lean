import PeriodSheet.Proofs.ColourRules

/-!
# The order of definitions

In which order an activity lists its fields and its colour rules does not matter for what a record
comes to (`Computation.ofRecord_relisted`).  That takes a savable activity whose colour rules have
identifiers of their own, and each part of a computation asks for one of these promises:

* **the columns and the plan**: fields of distinct names have one display order, from which the
  graph and the steps are made (`Field.sortForDisplay_perm`, `Activity.plan_relisted`);
* **completeness and the badge**: a flag that at most one field has tells the same field in every
  order (`find?_perm`);
* **styles**: of rules with identifiers of their own the same one decides in every order
  (`ColourRule.winner?_perm`).

What computing reads of an activity beside its plan is gathered in `Activity.ComputesLike`.
-/

namespace PeriodSheet

/-! ### Display order -/

namespace Field

theorem displaysBefore_iff {a b : Field} :
    a.displaysBefore b = true ↔ a.displayOrder < b.displayOrder ∨
      a.displayOrder = b.displayOrder ∧ a.name.key ≤ b.name.key := by
  simp [displaysBefore, Std.le_iff_lt_or_eq (a := a.name.key)]

theorem displaysBefore_trans (a b c : Field) (hab : a.displaysBefore b = true)
    (hbc : b.displaysBefore c = true) : a.displaysBefore c = true := by
  rw [displaysBefore_iff] at hab hbc ⊢
  rcases hab with hab | ⟨hab, hkey⟩ <;> rcases hbc with hbc | ⟨hbc, hkey'⟩
  · exact .inl (hab.trans hbc)
  · exact .inl (hbc ▸ hab)
  · exact .inl (hab ▸ hbc)
  · exact .inr ⟨hab.trans hbc, String.le_trans hkey hkey'⟩

theorem displaysBefore_total (a b : Field) :
    (a.displaysBefore b || b.displaysBefore a) = true := by
  rw [Bool.or_eq_true, displaysBefore_iff, displaysBefore_iff]
  rcases Int.lt_trichotomy a.displayOrder b.displayOrder with hlt | heq | hgt
  · exact .inl (.inl hlt)
  · rcases String.le_total a.name.key b.name.key with hle | hle
    · exact .inl (.inr ⟨heq, hle⟩)
    · exact .inr (.inr ⟨heq.symm, hle⟩)
  · exact .inr (.inl hgt)

/-- Fields that are each displayed before the other have the same name. -/
theorem same_of_displaysBefore {a b : Field} (hab : a.displaysBefore b = true)
    (hba : b.displaysBefore a = true) : a.name.same b.name = true := by
  rw [displaysBefore_iff] at hab hba
  rw [FieldName.same_iff]
  have hkey : a.name.key ≤ b.name.key := (hab.resolve_left (by omega)).2
  have hkey' : b.name.key ≤ a.name.key := (hba.resolve_left (by omega)).2
  exact String.le_antisymm hkey hkey'

theorem pairwise_sortForDisplay (fields : List Field) :
    (sortForDisplay fields).Pairwise fun a b => a.displaysBefore b = true :=
  List.pairwise_mergeSort displaysBefore_trans displaysBefore_total fields

/-- Fields of distinct names have one display order. -/
theorem sortForDisplay_perm {fields others : List Field} (hperm : fields.Perm others)
    (hnames : fields.Pairwise fun a b => a.name.same b.name = false) :
    sortForDisplay fields = sortForDisplay others := by
  have hsorted := List.mergeSort_perm fields displaysBefore
  have hsorted' := List.mergeSort_perm others displaysBefore
  refine List.Perm.eq_of_pairwise (fun a b ha hb hab hba => ?_) (pairwise_sortForDisplay fields)
    (pairwise_sortForDisplay others) (hsorted.trans (hperm.trans hsorted'.symm))
  exact eq_of_same hnames (hsorted.subset ha) (hperm.symm.subset (hsorted'.subset hb))
    (same_of_displaysBefore hab hba)

end Field

/-! ### Indicators -/

/-- What at most one member satisfies is found in every order. -/
theorem find?_perm {α : Type} {p : α → Bool} {members others : List α}
    (hperm : members.Perm others) (hcount : members.countP p ≤ 1) :
    members.find? p = others.find? p := by
  have hfilter := hperm.filter p
  rw [List.countP_eq_length_filter] at hcount
  rw [← List.head?_filter, ← List.head?_filter]
  generalize members.filter p = found at hfilter hcount
  match found with
  | [] => rw [← hfilter.nil_eq]
  | [member] => rw [List.perm_singleton.1 hfilter.symm]
  | first :: second :: rest => simp at hcount

namespace Activity

variable {activity : Activity}

theorem countP_of_savable (h : activity.savable = true) {isFlagged : Field → Bool} {label : String}
    (hchecked : ∀ issue ∈ activity.checkIndicator isFlagged label, issue ∈ activity.check) :
    activity.fields.countP isFlagged ≤ 1 := by
  by_contra hmany
  have hissue : (⟨activity.name, .duplicateIndicator (activity.fields.countP isFlagged) label⟩ :
      Issue) ∈ activity.checkIndicator isFlagged label := by
    rw [checkIndicator, if_pos (Nat.lt_of_not_le hmany)]
    exact List.mem_singleton_self _
  exact severity_of_savable h (hchecked _ hissue) rfl

theorem countP_isCompletion (h : activity.savable = true) :
    activity.fields.countP isCompletion ≤ 1 :=
  countP_of_savable h fun issue hissue => by
    simp only [check, List.mem_append]
    tauto

theorem countP_isResult (h : activity.savable = true) : activity.fields.countP isResult ≤ 1 :=
  countP_of_savable h fun issue hissue => by
    simp only [check, List.mem_append]
    tauto

/-! ### Activities that are computed alike -/

/-- What computing reads of an activity beside its plan, the same for two activities. -/
structure ComputesLike (a b : Activity) : Prop where
  id : a.id = b.id
  name : a.name = b.name
  periodCount : a.periodCount = b.periodCount
  periodLabel : a.periodLabel = b.periodLabel
  carryRules : a.carryRules = b.carryRules
  showsTotals : a.showsTotals = b.showsTotals
  completionField? : a.completionField? = b.completionField?
  resultField? : a.resultField? = b.resultField?
  cellStyle : ColourRule.cellStyle a.colourRules = ColourRule.cellStyle b.colourRules
  rowStyle : ColourRule.rowStyle a.colourRules = ColourRule.rowStyle b.colourRules

end Activity

section ComputesLike

variable {plan : Plan} {other : Activity} (h : other.ComputesLike plan.activity)
include h

theorem Carrying.ofRules_like :
    Carrying.ofRules { plan with activity := other } = Carrying.ofRules plan := by
  funext period view outcome next
  rw [ofRules, ofRules, h.carryRules]

theorem ComputedPeriod.row_like :
    ComputedPeriod.row { plan with activity := other } = ComputedPeriod.row plan := by
  funext computed
  have hcell : ComputedPeriod.cell other.colourRules =
      ComputedPeriod.cell plan.activity.colourRules := by
    funext computed field
    simp only [cell, ComputedPeriod.cellStyle, h.cellStyle]
  simp only [row, hcell, h.rowStyle, h.periodLabel, h.completionField?]

theorem Computing.step_like :
    Computing.step { plan with activity := other } = Computing.step plan := by
  have hcarry : Computing.carryOver { plan with activity := other } = Computing.carryOver plan := by
    funext period view outcome computing
    simp only [carryOver, Carrying.ofRules_like h, h.periodCount, h.carryRules]
  funext computing period
  -- views and outcomes do not read the activity
  have houtcome : Outcome.ofView { plan with activity := other } = Outcome.ofView plan := rfl
  simp only [step, hcarry, houtcome, ComputedPeriod.row_like h, h.id]

/-- Activities that are computed alike come to the same by one plan. -/
theorem Computation.ofRecord_like (record : Record) (range : PeriodRange) :
    ofRecord { plan with activity := other } record range = ofRecord plan record range := by
  simp only [ofRecord, Computing.step_like h, foreignNotice, Sheet.ofRows, h.id, h.name,
    h.periodCount, h.showsTotals, h.resultField?]

end ComputesLike

/-! ### Listing definitions in another order -/

namespace Activity

/-- The activity with its fields and its colour rules listed anew. -/
def relisted (activity : Activity) (fields : List Field) (colourRules : List ColourRule) :
    Activity :=
  { activity with
    shape := match activity.shape with
      | .periodic layout => .periodic { layout with fields, colourRules }
      | .plain .. => .plain fields colourRules }

variable (activity : Activity) (fields : List Field) (colourRules : List ColourRule)

@[simp]
theorem fields_relisted : (activity.relisted fields colourRules).fields = fields := by
  obtain ⟨id, name, description, _ | _⟩ := activity <;> rfl

@[simp]
theorem colourRules_relisted :
    (activity.relisted fields colourRules).colourRules = colourRules := by
  obtain ⟨id, name, description, _ | _⟩ := activity <;> rfl

@[simp]
theorem periodCount_relisted :
    (activity.relisted fields colourRules).periodCount = activity.periodCount := by
  obtain ⟨id, name, description, _ | _⟩ := activity <;> rfl

@[simp]
theorem periodLabel_relisted :
    (activity.relisted fields colourRules).periodLabel = activity.periodLabel := by
  obtain ⟨id, name, description, _ | _⟩ := activity <;> rfl

@[simp]
theorem carryRules_relisted :
    (activity.relisted fields colourRules).carryRules = activity.carryRules := by
  obtain ⟨id, name, description, _ | _⟩ := activity <;> rfl

@[simp]
theorem showsTotals_relisted :
    (activity.relisted fields colourRules).showsTotals = activity.showsTotals := by
  obtain ⟨id, name, description, _ | _⟩ := activity <;> rfl

variable {activity fields colourRules}

theorem activeFields_relisted (h : activity.savable = true)
    (hfields : activity.fields.Perm fields) :
    (activity.relisted fields colourRules).activeFields = activity.activeFields := by
  rw [activeFields, activeFields, fields_relisted]
  exact (Field.sortForDisplay_perm (hfields.filter _) ((pairwise_of_savable h).filter _)).symm

theorem plan_relisted (settings : Settings) (h : activity.savable = true)
    (hfields : activity.fields.Perm fields) :
    Plan.ofActivity settings (activity.relisted fields colourRules) =
      { Plan.ofActivity settings activity with
        activity := activity.relisted fields colourRules } := by
  simp only [Plan.ofActivity, activeFields_relisted h hfields]

/-- A savable activity is computed alike however its definitions are listed. -/
theorem computesLike_relisted (h : activity.savable = true)
    (hids : (activity.colourRules.map (·.id)).Nodup) (hfields : activity.fields.Perm fields)
    (hrules : activity.colourRules.Perm colourRules) :
    (activity.relisted fields colourRules).ComputesLike activity where
  id := rfl
  name := rfl
  periodCount := periodCount_relisted activity fields colourRules
  periodLabel := periodLabel_relisted activity fields colourRules
  carryRules := carryRules_relisted activity fields colourRules
  showsTotals := showsTotals_relisted activity fields colourRules
  completionField? := by
    rw [completionField?, completionField?, fields_relisted]
    exact (find?_perm hfields (countP_isCompletion h)).symm
  resultField? := by
    rw [resultField?, resultField?, fields_relisted]
    exact (find?_perm hfields (countP_isResult h)).symm
  cellStyle := by
    rw [colourRules_relisted]
    exact (ColourRule.cellStyle_perm hrules (ColourRule.nodup_rank hids)).symm
  rowStyle := by
    rw [colourRules_relisted]
    exact (ColourRule.rowStyle_perm hrules (ColourRule.nodup_rank hids)).symm

end Activity

namespace Computation

/-- **The order of definitions does not matter.**  However a savable activity lists its fields and
its colour rules, the rules having identifiers of their own, every record comes to the same: the
same sheet, the same record, and the same carry events and notices. -/
theorem ofRecord_relisted (activity : Activity) (settings : Settings) (record : Record)
    (range : PeriodRange) (fields : List Field) (colourRules : List ColourRule)
    (hsavable : activity.savable = true) (hids : (activity.colourRules.map (·.id)).Nodup)
    (hfields : activity.fields.Perm fields) (hrules : activity.colourRules.Perm colourRules) :
    ofRecord (.ofActivity settings (activity.relisted fields colourRules)) record range =
      ofRecord (.ofActivity settings activity) record range := by
  have hlike : (activity.relisted fields colourRules).ComputesLike
      (Plan.ofActivity settings activity).activity :=
    Activity.computesLike_relisted hsavable hids hfields hrules
  rw [Activity.plan_relisted settings hsavable hfields, ofRecord_like hlike]

/-- Coloured credits with the fields listed backwards and the colour rules exchanged. -/
theorem ofRecord_relisted_credits :
    let activity := Credits.coloured
    let entered := Credits.record "300" .empty .empty
    let relisted := activity.relisted Credits.fields.reverse
      [Credits.largePayment, Credits.negativeCredit]
    activity.savable = true ∧ (activity.colourRules.map (·.id)).Nodup ∧
      activity.fields ≠ relisted.fields ∧ activity.colourRules ≠ relisted.colourRules ∧
      ofRecord (.ofActivity {} relisted) entered .all =
        ofRecord (.ofActivity {} activity) entered .all := by
  intro activity entered relisted
  have hids : (activity.colourRules.map (·.id)).Nodup := by decide
  refine ⟨Credits.savable_coloured, hids, by decide, by decide, ?_⟩
  exact ofRecord_relisted activity {} entered .all Credits.fields.reverse
    [Credits.largePayment, Credits.negativeCredit] Credits.savable_coloured hids
    (List.reverse_perm _).symm (.swap _ _ _)

end Computation

end PeriodSheet
