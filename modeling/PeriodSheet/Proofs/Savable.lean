import PeriodSheet.Proofs.References

/-!
# Savable activities

What the check of an activity promises where it reports no error: the names of the fields are
distinct (`pairwise_of_savable`), the formula of each calculated field reads and refers to active
fields that the user fills in, other than the field itself (`formulaCheck_of_savable`,
`check_eq_none`), and carry rules move numbers between fields that exist, into fields that the user
fills in (`carry_of_savable`).
-/

namespace PeriodSheet

/-! ### Distinct names -/

/-- A map that is filled with what some function has for names answers with the function. -/
theorem NameMap.get?_ofList_map {α : Type} {f : FieldName → α}
    (hf : ∀ {a b : FieldName}, a.same b = true → f a = f b) (names : List FieldName)
    (name : FieldName) :
    (NameMap.ofList (names.map fun name => (name, f name))).get? name =
      if names.any (·.same name) then some (f name) else none := by
  have key : ∀ map : NameMap α,
      ((names.map fun name => (name, f name)).foldl (fun map e => map.insert e.1 e.2) map).get?
        name = if names.any (·.same name) then some (f name) else map.get? name := by
    induction names with
    | nil => exact fun _ => rfl
    | cons first rest ih =>
      intro map
      rw [List.map_cons, List.foldl_cons, ih, NameMap.get?_insert, List.any_cons]
      by_cases h : first.same name = true
      · rw [h, Bool.true_or, if_pos rfl, if_pos rfl, hf h, ite_self]
      · rw [Bool.eq_false_iff.2 h]
        rfl
  exact key .empty

theorem pairwise_of_countP {fields : List Field}
    (h : ∀ field ∈ fields, (fields.map (·.name)).countP (·.same field.name) ≤ 1) :
    fields.Pairwise fun a b => a.name.same b.name = false := by
  induction fields with
  | nil => exact .nil
  | cons field rest ih =>
    refine List.pairwise_cons.2 ⟨fun other hother => ?_, ih fun other hother => ?_⟩
    · -- the field and a later one of its name would be two
      rw [Bool.eq_false_iff]
      intro hsame
      have hcount := h other (List.mem_cons_of_mem field hother)
      have hrest : 0 < (rest.map (·.name)).countP (·.same other.name) :=
        List.countP_pos_iff.2 ⟨other.name, List.mem_map_of_mem hother, FieldName.same_refl _⟩
      rw [List.map_cons, List.countP_cons, if_pos hsame] at hcount
      omega
    · have hcount := h other (List.mem_cons_of_mem field hother)
      rw [List.map_cons, List.countP_cons] at hcount
      omega

namespace Activity

open Text

/-- Fields among which no name is reported as a duplicate have distinct names. -/
theorem pairwise_of_checkNames {fields : List Field} (h : checkNames fields = []) :
    fields.Pairwise fun a b => a.name.same b.name = false := by
  refine pairwise_of_countP fun field hfield => ?_
  have hcongr : ∀ {a b : FieldName}, a.same b = true →
      (fields.map (·.name)).countP (·.same a) = (fields.map (·.name)).countP (·.same b) := by
    intro a b hsame
    simp only [FieldName.same_congr_right hsame]
  have hany : (distinctNames (fields.map (·.name))).any (·.same field.name) = true := by
    rw [any_distinctNames]
    exact List.any_eq_true.2 ⟨_, List.mem_map_of_mem hfield, FieldName.same_refl _⟩
  -- the count of the field's name stands in the table of counts
  have hget := NameMap.get?_ofList_map hcongr (distinctNames (fields.map (·.name))) field.name
  rw [if_pos hany] at hget
  obtain ⟨entry, hentry, -, hcount⟩ := NameMap.exists_mem_of_get? hget
  unfold checkNames at h
  have hfilter := List.map_eq_nil_iff.1 h
  have hle := List.filter_eq_nil_iff.1 hfilter entry hentry
  rw [hcount] at hle
  simpa using hle

variable {activity : Activity}

theorem mem_activeFields_iff {field : Field} :
    field ∈ activity.activeFields ↔ field ∈ activity.fields ∧ field.isActive = true := by
  rw [activeFields, Field.sortForDisplay, (List.mergeSort_perm _ _).mem_iff, List.mem_filter]

/-! ### What the check promises -/

theorem severity_of_savable (h : activity.savable = true) {issue : Issue}
    (hissue : issue ∈ activity.check) : issue.severity ≠ .error := by
  unfold savable Issue.savable at h
  rw [Bool.not_eq_true', List.any_eq_false] at h
  have herror := h issue hissue
  rw [Issue.isError] at herror
  simpa using herror

theorem pairwise_of_savable (h : activity.savable = true) :
    activity.fields.Pairwise fun a b => a.name.same b.name = false := by
  apply pairwise_of_checkNames
  rw [List.eq_nil_iff_forall_not_mem]
  intro issue hissue
  have hcause : issue.cause = .duplicateField := by
    obtain ⟨entry, -, rfl⟩ := List.mem_map.1 hissue
    rfl
  have hmem : issue ∈ activity.check := by
    simp only [check, List.mem_append]
    tauto
  refine severity_of_savable h hmem ?_
  rw [Issue.severity, hcause]
  rfl

/-- The active fields of a savable activity have distinct names. -/
theorem namesDistinct_of_savable (h : activity.savable = true) : activity.NamesDistinct := by
  have hactive := (pairwise_of_savable h).filter (·.isActive)
  refine (List.mergeSort_perm _ _).symm.pairwise hactive fun {a b} hab => ?_
  rw [FieldName.same_comm, hab]

theorem causes_of_savable (h : activity.savable = true) {field : Field}
    (hfield : field ∈ activity.fields) {cause : IssueCause}
    (hcause : cause ∈ fieldCauses activity.fields field) : cause.severity ≠ .error := by
  have hissue : (⟨field.name.spelling, cause⟩ : Issue) ∈ activity.check := by
    have hmem : (⟨field.name.spelling, cause⟩ : Issue) ∈
        activity.fields.flatMap (checkField activity.fields) :=
      List.mem_flatMap.2 ⟨field, hfield, List.mem_map_of_mem hcause⟩
    simp only [check, List.mem_append]
    tauto
  exact severity_of_savable h hissue

theorem carryCauses_of_savable (h : activity.savable = true) {rule : CarryRule}
    (hrule : rule ∈ activity.carryRules) {cause : IssueCause}
    (hcause : cause ∈ activity.carryCauses rule) : cause.severity ≠ .error := by
  have hissue : (⟨"carry rule " ++ ofInt rule.id, cause⟩ : Issue) ∈ activity.check := by
    have hmem : (⟨"carry rule " ++ ofInt rule.id, cause⟩ : Issue) ∈
        activity.carryRules.flatMap activity.checkCarryRule :=
      List.mem_flatMap.2 ⟨rule, hrule, List.mem_map_of_mem hcause⟩
    simp only [check, List.mem_append]
    tauto
  exact severity_of_savable h hissue

/-- The formula of a field of a savable activity passes its check beside the other active fields. -/
theorem formulaCheck_of_savable (h : activity.savable = true) {field : Field}
    (hfield : field ∈ activity.fields) {source : String} (hsource : field.formula = some source) :
    Formula.check ((activity.fields.filter fun other =>
      other.isActive && !other.name.same field.name).map (·.referable)) source = none := by
  cases hcheck : Formula.check ((activity.fields.filter fun other =>
      other.isActive && !other.name.same field.name).map (·.referable)) source with
  | none => rfl
  | some rejection =>
    have hcause : IssueCause.invalidFormula rejection ∈ fieldCauses activity.fields field := by
      simp only [fieldCauses, hsource, hcheck]
      exact List.mem_append_right _ (List.mem_singleton_self _)
    exact absurd rfl (causes_of_savable h hfield hcause)

/-- **The carry rules of a savable activity move numbers.**  They name fields that exist; the origin
is calculated or numeric, and the destination is numeric and filled in by the user. -/
theorem carry_of_savable (h : activity.savable = true) {rule : CarryRule}
    (hrule : rule ∈ activity.carryRules) :
    ∃ origin destination, activity.field? rule.origin = some origin ∧
      activity.field? rule.destination = some destination ∧
      (origin.isCalculated = true ∨ origin.dataType.isNumeric = true) ∧
      destination.isCalculated = false ∧ destination.dataType.isNumeric = true := by
  have hcauses : ∀ cause ∈ activity.carryCauses rule, cause.severity ≠ .error :=
    fun cause => carryCauses_of_savable h hrule
  cases horigin : activity.field? rule.origin with
  | none =>
    have hcause : IssueCause.unknownRuleField rule.origin.spelling ∈ activity.carryCauses rule := by
      simp [carryCauses, horigin]
    exact absurd rfl (hcauses _ hcause)
  | some origin =>
    cases hdestination : activity.field? rule.destination with
    | none =>
      have hcause : IssueCause.unknownRuleField rule.destination.spelling ∈
          activity.carryCauses rule := by
        simp [carryCauses, hdestination]
      exact absurd rfl (hcauses _ hcause)
    | some destination =>
      have hentered : destination.isCalculated = false := by
        rw [Bool.eq_false_iff]
        intro hcalculated
        have hcause : IssueCause.calculatedDestination destination.name.spelling ∈
            activity.carryCauses rule := by
          simp [carryCauses, hdestination, hcalculated]
        exact hcauses _ hcause rfl
      refine ⟨origin, destination, rfl, rfl, ?_, hentered, ?_⟩
      · by_contra hnot
        rw [not_or, Bool.not_eq_true, Bool.not_eq_true] at hnot
        have hcause : IssueCause.uncarriable .origin origin.name.spelling origin.dataType ∈
            activity.carryCauses rule := by
          simp [carryCauses, horigin, hnot]
        exact hcauses _ hcause rfl
      · by_contra hnot
        rw [Bool.not_eq_true] at hnot
        have hcause : IssueCause.uncarriable .destination destination.name.spelling
            destination.dataType ∈ activity.carryCauses rule := by
          simp [carryCauses, hdestination, hentered, hnot]
        exact hcauses _ hcause rfl

end Activity

/-! ### Formulas that pass their check -/

namespace Formula

theorem badReference?_eq_none {fields : List Referable} {available : List String}
    {names : List FieldName} (h : badReference? fields available names = none) :
    ∀ name ∈ names, ∃ field ∈ fields, field.name.same name = true ∧ field.calculated = false := by
  induction names with
  | nil => intro name hname; cases hname
  | cons first rest ih =>
    unfold badReference? at h
    split at h
    · cases h
    · next field hfound =>
      split at h
      · cases h
      · next hentered =>
        intro name hname
        rcases List.mem_cons.1 hname with rfl | hname
        · have hsame := List.find?_some hfound
          exact ⟨field, List.mem_of_find?_eq_some hfound, hsame, Bool.eq_false_iff.2 hentered⟩
        · exact ih h name hname

/-- A formula that passes the check reads and refers to entered fields alone. -/
theorem check_eq_none {fields : List Referable} {source : String} (h : check fields source = none) :
    ∃ formula, parse source = .ok formula ∧ ∀ name ∈ formula.expr.fields,
      ∃ field ∈ fields, field.name.same name = true ∧ field.calculated = false := by
  unfold check at h
  dsimp only at h
  split at h
  · cases h
  · next formula hparse =>
    refine ⟨formula, hparse, ?_⟩
    split at h
    · cases h
    · split at h
      · cases h
      · next hgood =>
        intro name hname
        -- the formula refers to the name in the spelling of its first use
        have hany : formula.references.any (·.same name) = true := by
          rw [references, any_distinctNames]
          exact List.any_eq_true.2 ⟨name, hname, FieldName.same_refl name⟩
        obtain ⟨first, hfirst, hsame⟩ := List.any_eq_true.1 hany
        obtain ⟨field, hfield, hfound, hentered⟩ := badReference?_eq_none hgood first hfirst
        exact ⟨field, hfield, (FieldName.same_congr_right hsame field.name).symm.trans hfound,
          hentered⟩

end Formula

/-- **The formula of a calculated field of a savable activity reads** where it is not too long, and
refers to active fields that the user fills in. -/
theorem Activity.exists_reading_of_savable {activity : Activity} (settings : Settings)
    (h : activity.savable = true) {field : Field} (hfield : field ∈ activity.calculatedFields)
    (hlength : ∀ source ∈ field.formula, source.length ≤ settings.maxFormulaLength) :
    ∃ formula, field.reading? settings = some (.ok formula) ∧ ∀ name ∈ formula.expr.fields,
      ∃ other ∈ activity.activeFields, other.name.same name = true ∧
        other.isCalculated = false := by
  obtain ⟨hactive, hcalculated⟩ := mem_activeFields hfield
  obtain ⟨source, hsource⟩ := Option.isSome_iff_exists.1 hcalculated
  have hmem := (mem_activeFields_iff.1 hactive).1
  obtain ⟨formula, hparse, hfields⟩ :=
    Formula.check_eq_none (formulaCheck_of_savable h hmem hsource)
  refine ⟨formula, ?_, fun name hname => ?_⟩
  · have hle := hlength source hsource
    rw [Field.reading?, hsource, Option.map_some, Formula.parseWithin, if_neg (by omega), hparse]
  · obtain ⟨referable, hreferable, hsame, hentered⟩ := hfields name hname
    obtain ⟨other, hother, rfl⟩ := List.mem_map.1 hreferable
    obtain ⟨hother, hkept⟩ := List.mem_filter.1 hother
    rw [Bool.and_eq_true] at hkept
    exact ⟨other, mem_activeFields_iff.2 ⟨hother, hkept.1⟩, hsame, hentered⟩

end PeriodSheet
