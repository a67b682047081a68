import PeriodSheet.Proofs.References

/-!
# The steps of a plan

What a plan does with each calculated field, and in which order, where the names of the active
fields are distinct.  The step of a field is what its formula says (`Activity.stepOf`): it fails at
once where the formula does not read or the field is blocked, and is evaluated otherwise.  The
fields are *scheduled*: each of them once, and those that are not blocked after their dependencies
(`Activity.exists_scheduled`).
-/

namespace PeriodSheet

namespace Activity

open Classical in
/-- How a calculated field gets its value in every period. -/
noncomputable def stepOf (settings : Settings) (activity : Activity) (field : Field) : PlanStep :=
  match (ReadField.ofField settings.maxFormulaLength field).formula with
  | .error error => .fail error
  | .ok formula =>
    if activity.Reaches settings field field then
      .fail (.ofCycle ((activity.cycleOf settings field).map (·.name)))
    else
      match activity.firstBlocked? settings field with
      | some other => .fail (.dependencyFailed other.name.spelling)
      | none => .evaluate formula

noncomputable def planned (settings : Settings) (activity : Activity) (field : Field) :
    PlannedField :=
  ⟨field.name, activity.stepOf settings field⟩

variable {settings : Settings} {activity : Activity}

theorem firstBlocked?_eq_none {field : Field} (h : ¬ activity.Blocked settings field) :
    activity.firstBlocked? settings field = none := by
  cases hfirst : activity.firstBlocked? settings field with
  | none => rfl
  | some other => exact absurd (blocked_of_firstBlocked? hfirst) h

theorem firstBlocked?_isSome {field : Field} (h : activity.Blocked settings field) :
    (activity.firstBlocked? settings field).isSome = true := by
  obtain ⟨other, hmem, hblocked⟩ := h.exists_dependency
  rw [firstBlocked?, List.find?_isSome]
  exact ⟨other, hmem, by simpa using hblocked⟩

/-- The formula of a blocked field reads: it has dependencies. -/
theorem exists_formula_of_blocked {field : Field} (hfield : field.isCalculated = true)
    (h : activity.Blocked settings field) :
    ∃ formula, (ReadField.ofField settings.maxFormulaLength field).formula = .ok formula := by
  obtain ⟨other, hmem, -⟩ := h.exists_dependency
  have hmentions := (List.mem_filter.1 hmem).2
  rw [Field.mentions, ReadField.reading?_eq settings hfield] at hmentions
  cases hformula : (ReadField.ofField settings.maxFormulaLength field).formula with
  | ok formula => exact ⟨formula, rfl⟩
  | error error =>
    rw [hformula] at hmentions
    cases hmentions

/-! ### The steps -/

theorem graph_ofActivity (settings : Settings) (activity : Activity) :
    (Plan.ofActivity settings activity).graph = activity.graph settings := by
  rw [Plan.ofActivity, graph, calculatedFields]
  exact congrArg ReadField.graph (ReadField.ofFields_eq _ _)

/-- A field that has an order gets the step that it was read with. -/
theorem orderedStep?_eq (hnames : activity.NamesDistinct) {field : Field}
    (hfield : field ∈ activity.calculatedFields) (hfree : ¬ activity.Blocked settings field) :
    Plan.orderedStep? (activity.calculatedFields.map (ReadField.ofField settings.maxFormulaLength))
      field.name = some (activity.planned settings field) := by
  have hcalculated : Field.find? activity.calculatedFields field.name = some field :=
    Field.find?_of_mem (hnames.filter _) hfield (FieldName.same_refl field.name)
  have hself : ¬ activity.Reaches settings field field := fun h => hfree (.of_reaches_self h)
  -- a field that is not blocked has no other error than that of its formula
  have hstep : (ReadField.ofField settings.maxFormulaLength field).step =
      activity.stepOf settings field := by
    rw [ReadField.step, stepOf]
    cases (ReadField.ofField settings.maxFormulaLength field).formula with
    | error error => rfl
    | ok formula =>
      dsimp only
      rw [if_neg hself, firstBlocked?_eq_none hfree]
  have hread : (activity.calculatedFields.map (ReadField.ofField settings.maxFormulaLength)).find?
      (·.name.same field.name) =
        some (ReadField.ofField settings.maxFormulaLength field) := by
    rw [List.find?_map]
    exact congrArg (Option.map _) hcalculated
  rw [Plan.orderedStep?, hread, Option.map_some, hstep, planned]

/-- A field is named among those without an order where it is one of them. -/
theorem any_missing (hnames : activity.NamesDistinct) {field : Field}
    (hfield : field ∈ activity.calculatedFields) :
    ((activity.graph settings).namesOf ((activity.graph settings).missing
      (activity.graph settings).order)).any (·.same field.name) = true ↔
        activity.Blocked settings field := by
  have hwf := wellFormed_graph settings activity
  obtain ⟨rank, hrank⟩ := List.getElem?_of_mem hfield
  rw [← blocked_iff hnames hrank, namesOf_graph, List.any_map, List.any_eq_true]
  constructor
  · rintro ⟨other, hmem, hsame⟩
    obtain ⟨place, hplace, hother⟩ := List.mem_filterMap.1 hmem
    rw [← hnames.place_eq hother hrank hsame]
    exact ((DependencyGraph.mem_missing_order hwf).1 hplace).2
  · intro hblocked
    have hlt : rank < (activity.graph settings).size := by
      rw [size_graph]
      exact (List.getElem?_eq_some_iff.1 hrank).1
    have hmissing := (DependencyGraph.mem_missing_order hwf).2 ⟨hlt, hblocked⟩
    exact ⟨field, List.mem_filterMap.2 ⟨rank, hmissing, hrank⟩, FieldName.same_refl field.name⟩

/-- A field finds its own cycle among those of the graph, or none where it is on no cycle. -/
theorem find?_cycles (hnames : activity.NamesDistinct) {field : Field}
    (hfield : field ∈ activity.calculatedFields)
    [Decidable (activity.Reaches settings field field)] :
    (activity.graph settings).cycles.find? (·.any (·.same field.name)) =
      if activity.Reaches settings field field then
        some ((activity.cycleOf settings field).map (·.name))
      else none := by
  have hwf := wellFormed_graph settings activity
  obtain ⟨rank, hrank⟩ := List.getElem?_of_mem hfield
  -- a cycle names the field where it holds the field's rank
  have hnamed : ((fun names : List FieldName => names.any (·.same field.name)) ∘
      (activity.graph settings).namesOf) = fun cycle => cycle.contains rank := by
    funext cycle
    rw [Function.comp_apply, namesOf_graph, List.any_map, Bool.eq_iff_iff, List.any_eq_true,
      List.contains_iff_mem]
    constructor
    · rintro ⟨other, hmem, hsame⟩
      obtain ⟨place, hplace, hother⟩ := List.mem_filterMap.1 hmem
      rwa [← hnames.place_eq hother hrank hsame]
    · intro hmem
      exact ⟨field, List.mem_filterMap.2 ⟨rank, hmem, hrank⟩, FieldName.same_refl field.name⟩
  rw [DependencyGraph.cycles, List.find?_map, hnamed]
  split
  · rename_i hself
    rw [DependencyGraph.find?_cycleRanks hwf ((reaches_iff hnames hrank hrank).2 hself),
      Option.map_some, namesOf_graph, fieldsAt_cycleOf hnames hrank]
  · rename_i hself
    rw [DependencyGraph.find?_cycleRanks_eq_none hwf fun h =>
      hself ((reaches_iff hnames hrank hrank).1 h), Option.map_none]

/-- A field that has no order fails with the error of its step. -/
theorem unorderedError_eq (hnames : activity.NamesDistinct) {field : Field}
    (hfield : field ∈ activity.calculatedFields) (hblocked : activity.Blocked settings field) :
    (⟨field.name, .fail (Plan.unorderedError (activity.graph settings)
      (activity.graph settings).cycles ((activity.graph settings).namesOf
        ((activity.graph settings).missing (activity.graph settings).order)) field.name)⟩ :
          PlannedField) = activity.planned settings field := by
  classical
  obtain ⟨formula, hformula⟩ := exists_formula_of_blocked (mem_activeFields hfield).2 hblocked
  rw [planned, stepOf, hformula, Plan.unorderedError, find?_cycles hnames hfield]
  by_cases hself : activity.Reaches settings field field
  · rw [if_pos hself]
    dsimp only
    rw [if_pos hself]
  · obtain ⟨other, hother⟩ := Option.isSome_iff_exists.1 (firstBlocked?_isSome hblocked)
    -- the first name without an order is that of the first blocked dependency
    have hfirst : ((activity.graph settings).dependencies field.name).find? (fun name =>
        ((activity.graph settings).namesOf ((activity.graph settings).missing
          (activity.graph settings).order)).any (·.same name)) = some other.name := by
      rw [dependencies_graph hnames hfield, List.find?_map, ← List.head?_filter]
      rw [firstBlocked?, ← List.head?_filter] at hother
      rw [← Option.map_some, ← hother]
      refine congrArg (fun fields => Option.map _ (List.head? fields))
        (List.filter_congr fun dependency hmem => ?_)
      rw [Bool.eq_iff_iff, Function.comp_apply, any_missing hnames (List.mem_filter.1 hmem).1]
      simp
    rw [if_neg hself]
    dsimp only
    rw [if_neg hself, hfirst, hother]

/-- The steps of a plan are those of the fields that have an order, and then of the others. -/
theorem steps_ofActivity (hnames : activity.NamesDistinct) :
    (Plan.ofActivity settings activity).steps =
      (activity.fieldsAt (activity.graph settings).order ++
        activity.fieldsAt ((activity.graph settings).missing
          (activity.graph settings).order)).map (activity.planned settings) := by
  have hwf := wellFormed_graph settings activity
  have hsteps : (Plan.ofActivity settings activity).steps = Plan.stepsOf
      (activity.calculatedFields.map (ReadField.ofField settings.maxFormulaLength))
      (activity.graph settings) := by
    rw [Plan.ofActivity, graph, calculatedFields, ← ReadField.ofFields_eq]
  -- a node that has an order is not blocked
  have hordered : ((activity.graph settings).namesOf (activity.graph settings).order).filterMap
      (Plan.orderedStep?
        (activity.calculatedFields.map (ReadField.ofField settings.maxFormulaLength))) =
      (activity.fieldsAt (activity.graph settings).order).map (activity.planned settings) := by
    rw [namesOf_graph, List.filterMap_map, List.filterMap_eq_map_iff_forall_eq_some]
    intro field hmem
    obtain ⟨rank, hrank, hfield⟩ := List.mem_filterMap.1 hmem
    have hfree := ((DependencyGraph.mem_order hwf).1 hrank).2
    exact orderedStep?_eq hnames (List.mem_of_getElem? hfield)
      (mt (blocked_iff hnames hfield).2 hfree)
  -- a node without one is
  have hunordered : ((activity.graph settings).namesOf ((activity.graph settings).missing
      (activity.graph settings).order)).map (fun name =>
        (⟨name, .fail (Plan.unorderedError (activity.graph settings)
          (activity.graph settings).cycles ((activity.graph settings).namesOf
            ((activity.graph settings).missing (activity.graph settings).order)) name)⟩ :
              PlannedField)) =
      (activity.fieldsAt ((activity.graph settings).missing
        (activity.graph settings).order)).map (activity.planned settings) := by
    rw [namesOf_graph, List.map_map]
    refine List.map_congr_left fun field hmem => ?_
    obtain ⟨rank, hrank, hfield⟩ := List.mem_filterMap.1 hmem
    have hblocked := ((DependencyGraph.mem_missing_order hwf).1 hrank).2
    rw [Function.comp_apply, ← namesOf_graph settings]
    exact unorderedError_eq hnames (List.mem_of_getElem? hfield)
      ((blocked_iff hnames hfield).1 hblocked)
  rw [hsteps, Plan.stepsOf, DependencyGraph.sort, List.map_append, ← hordered, ← hunordered]
  dsimp only
  by_cases hlength : (activity.graph settings).order.length = (activity.graph settings).size
  · -- with all nodes ordered, there is nothing to add
    rw [if_pos hlength, DependencyGraph.missing_order_eq_nil hwf hlength]
    exact (List.append_nil _).symm
  · rw [if_neg hlength]
    rfl

/-! ### The schedule -/

/-- Fields are scheduled where each of them stands there once, and those that are not blocked after
their dependencies. -/
inductive Scheduled (settings : Settings) (activity : Activity) : List Field → Prop where
  | nil : Scheduled settings activity []
  | snoc {fields : List Field} {field : Field} :
      Scheduled settings activity fields → field ∈ activity.calculatedFields → field ∉ fields →
      (¬ activity.Blocked settings field →
        ∀ other ∈ activity.dependencies settings field, other ∈ fields) →
      Scheduled settings activity (fields ++ [field])

theorem Scheduled.mem_calculatedFields {fields : List Field}
    (h : activity.Scheduled settings fields) {field : Field} (hmem : field ∈ fields) :
    field ∈ activity.calculatedFields := by
  induction h with
  | nil => cases hmem
  | snoc _ hcalculated _ _ ih =>
    rcases List.mem_append.1 hmem with hmem | hmem
    · exact ih hmem
    · exact List.mem_singleton.1 hmem ▸ hcalculated

/-- Blocked fields may follow in any order. -/
theorem Scheduled.append {fields others : List Field} (h : activity.Scheduled settings fields)
    (hothers : ∀ field ∈ others, field ∈ activity.calculatedFields ∧
      activity.Blocked settings field ∧ field ∉ fields)
    (hnodup : others.Nodup) : activity.Scheduled settings (fields ++ others) := by
  induction others generalizing fields with
  | nil => rwa [List.append_nil]
  | cons field rest ih =>
    obtain ⟨hcalculated, hblocked, hnew⟩ := hothers field List.mem_cons_self
    obtain ⟨hfield, hrest⟩ := List.nodup_cons.1 hnodup
    -- of a blocked field the schedule asks for no dependencies
    have hsnoc := h.snoc hcalculated hnew (absurd hblocked)
    have hstill : ∀ other ∈ rest, other ∈ activity.calculatedFields ∧
        activity.Blocked settings other ∧ other ∉ fields ++ [field] := by
      intro other hmem
      obtain ⟨hcalculated, hblocked, hnew⟩ := hothers other (List.mem_cons_of_mem field hmem)
      refine ⟨hcalculated, hblocked, fun hmem' => ?_⟩
      rcases List.mem_append.1 hmem' with hmem' | hmem'
      · exact hnew hmem'
      · exact hfield (List.mem_singleton.1 hmem' ▸ hmem)
    rw [List.append_cons]
    exact ih hsnoc hstill hrest

theorem mem_fieldsAt (hnames : activity.NamesDistinct) {ranks : List Nat} {field : Field}
    {rank : Nat} (hrank : activity.calculatedFields[rank]? = some field) :
    field ∈ activity.fieldsAt ranks ↔ rank ∈ ranks := by
  rw [fieldsAt, List.mem_filterMap]
  constructor
  · rintro ⟨place, hplace, hfield⟩
    rwa [hnames.place_eq hrank hfield (FieldName.same_refl field.name)]
  · exact fun hmem => ⟨rank, hmem, hrank⟩

/-- A legal order of the graph schedules its fields. -/
theorem scheduled_of_legal (hnames : activity.NamesDistinct) {ranks : List Nat}
    (hlegal : (activity.graph settings).Legal ranks)
    (hlt : ∀ rank ∈ ranks, rank < activity.calculatedFields.length) :
    activity.Scheduled settings (activity.fieldsAt ranks) := by
  induction hlegal with
  | nil => exact .nil
  | @snoc ordered node _ hnew htargets ih =>
    have hnode := List.getElem?_eq_getElem (hlt node (by simp))
    rw [fieldsAt, List.filterMap_append, List.filterMap_cons_some hnode]
    refine (ih fun rank hmem => hlt rank (List.mem_append_left [node] hmem)).snoc
      (List.mem_of_getElem? hnode) (mt (mem_fieldsAt hnames hnode).1 hnew) fun _ other hother => ?_
    obtain ⟨place, hplace⟩ := List.getElem?_of_mem (List.mem_filter.1 hother).1
    exact (mem_fieldsAt hnames hplace).2
      (htargets place ((refers_iff hnames hnode hplace).2 hother))

/-- **A plan has a step for each calculated field, in a schedule.** -/
theorem exists_scheduled (settings : Settings) (hnames : activity.NamesDistinct) :
    ∃ fields, (Plan.ofActivity settings activity).steps = fields.map (activity.planned settings) ∧
      activity.Scheduled settings fields ∧
      ∀ field ∈ activity.calculatedFields, field ∈ fields := by
  have hwf := wellFormed_graph settings activity
  have hplace : ∀ {rank}, rank < (activity.graph settings).size →
      ∃ field, activity.calculatedFields[rank]? = some field := by
    intro rank hlt
    rw [size_graph] at hlt
    exact ⟨_, List.getElem?_eq_getElem hlt⟩
  have hordered : activity.Scheduled settings
      (activity.fieldsAt (activity.graph settings).order) := by
    refine scheduled_of_legal hnames (DependencyGraph.legal_order hwf) fun rank hmem => ?_
    rw [← size_graph settings]
    exact ((DependencyGraph.mem_order hwf).1 hmem).1
  refine ⟨_, steps_ofActivity hnames, hordered.append (fun field hmem => ?_) ?_,
    fun field hmem => ?_⟩
  · obtain ⟨rank, hrank, hfield⟩ := List.mem_filterMap.1 hmem
    have hblocked := ((DependencyGraph.mem_missing_order hwf).1 hrank).2
    refine ⟨List.mem_of_getElem? hfield, (blocked_iff hnames hfield).1 hblocked, fun hin => ?_⟩
    exact (DependencyGraph.mem_missing.1 hrank).2 ((mem_fieldsAt hnames hfield).1 hin)
  · -- no field is at two places
    refine List.Nodup.filterMap (fun i j field hi hj => ?_) (List.nodup_range.filter _)
    exact hnames.place_eq hi hj (FieldName.same_refl field.name)
  · obtain ⟨rank, hrank⟩ := List.getElem?_of_mem hmem
    have hlt : rank < (activity.graph settings).size := by
      rw [size_graph]
      exact (List.getElem?_eq_some_iff.1 hrank).1
    rw [List.mem_append, mem_fieldsAt hnames hrank, mem_fieldsAt hnames hrank,
      DependencyGraph.mem_missing]
    exact (Classical.em _).imp_right fun hnot => ⟨hlt, hnot⟩

/-- A step of a plan is that of a calculated field. -/
theorem exists_of_mem_steps (hnames : activity.NamesDistinct) {planned : PlannedField}
    (h : planned ∈ (Plan.ofActivity settings activity).steps) :
    ∃ field ∈ activity.calculatedFields, planned.name = field.name := by
  obtain ⟨fields, hsteps, hscheduled, -⟩ := exists_scheduled settings hnames
  rw [hsteps] at h
  obtain ⟨field, hfield, rfl⟩ := List.mem_map.1 h
  exact ⟨field, hscheduled.mem_calculatedFields hfield, rfl⟩

end Activity

end PeriodSheet
