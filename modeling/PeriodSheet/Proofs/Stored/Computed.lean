import PeriodSheet.Catalog
import PeriodSheet.Proofs.StoreContents
import PeriodSheet.Proofs.Stored.Records

/-!
# Storing what was computed

The numbers of a record keep the widths of stored data when the record is computed and saved
(`Record.Storable.recomputed`).  That rests on the schema: an activity that was read has a number of
periods of 32 bits (`Catalog.periodCount_lt_of_ofJsonText`, `Catalog.periodCount_lt_of_ofTomlText`),
and a computation adds no entries of other periods.
-/

namespace PeriodSheet

open Json

/-! ### Numbers of periods -/

theorem Layout.periodCount_lt_of_ofJson? {medium : Medium} {value : Json} {layout : Layout}
    (h : ofJson? medium value = some layout) : layout.periodCount < twoPow 32 := by
  unfold ofJson? at h
  obtain ⟨m, -, h⟩ := Option.bind_eq_some_iff.1 h
  obtain ⟨name, -, h⟩ := Option.bind_eq_some_iff.1 h
  obtain ⟨count, hcount, h⟩ := Option.bind_eq_some_iff.1 h
  -- the members behind do not matter
  iterate 10 obtain ⟨_, -, h⟩ := Option.bind_eq_some_iff.1 h
  obtain ⟨_, hcount⟩ := Fields.exists_of_required? hcount
  rw [← Option.some.inj h]
  exact lt_of_natBelow? hcount

theorem Shape.periodCount_lt_of_ofJson? {value : Json} {activity : Activity}
    (h : ofJson? value = some activity.shape) : activity.periodCount < twoPow 32 := by
  obtain ⟨⟨kind, members⟩, -, hread⟩ := Option.bind_eq_some_iff.1 h
  dsimp only at hread
  split at hread
  · unfold ofKind? at hread
    split at hread
    · obtain ⟨m, -, hread⟩ := Option.bind_eq_some_iff.1 hread
      obtain ⟨fields, -, hread⟩ := Option.bind_eq_some_iff.1 hread
      obtain ⟨colourRules, -, hread⟩ := Option.bind_eq_some_iff.1 hread
      rw [Activity.periodCount, ← Option.some.inj hread]
      exact (by decide : 1 < twoPow 32)
    · split at hread
      · obtain ⟨layout, hlayout, hshape⟩ := Option.map_eq_some_iff.1 hread
        rw [Activity.periodCount, ← hshape]
        exact Layout.periodCount_lt_of_ofJson? hlayout
      · cases hread
  · cases hread

namespace Activity

theorem periodCount_lt_of_ofJson? {medium : Medium} {value : Json} {activity : Activity}
    (h : ofJson? medium value = some activity) : activity.periodCount < twoPow 32 := by
  simp only [ofJson?, Option.bind_eq_bind, Option.bind_eq_some_iff] at h
  obtain ⟨m, -, id, -, name, -, description, -, shape, hshape, hactivity⟩ := h
  obtain ⟨_, hshape⟩ := Fields.exists_of_required? hshape
  obtain rfl := Option.some.inj hactivity
  exact Shape.periodCount_lt_of_ofJson? hshape

end Activity

namespace Catalog

theorem mem_of_ofList {activities : List Activity} {catalog : Catalog}
    (h : ofList activities = .ok catalog) : ∀ a ∈ catalog.toList, a ∈ activities := by
  have hfold : ∀ (rest : List Activity) (seeded : Catalog),
      rest.foldlM (fun catalog activity =>
        if (catalog.get? activity.id).isSome then .error (.duplicateId activity.id)
        else .ok (catalog.insert activity)) seeded = (.ok catalog : Except CatalogError Catalog) →
      ∀ a ∈ catalog.toList, a ∈ rest ∨ a ∈ seeded.toList := by
    intro rest
    induction rest with
    | nil =>
      intro seeded heq a ha
      obtain rfl := Except.ok.inj heq
      exact .inr ha
    | cons activity rest ih =>
      intro seeded heq a ha
      rw [List.foldlM_cons] at heq
      split at heq
      · cases heq
      · obtain hrest | hseeded := ih _ heq a ha
        · exact .inl (List.mem_cons_of_mem _ hrest)
        · obtain rfl | hseeded := mem_insertActivity hseeded
          · exact .inl List.mem_cons_self
          · exact .inr hseeded
  intro a ha
  exact (hfold activities empty h a ha).resolve_right List.not_mem_nil

theorem periodCount_lt_of_activitiesOf? {medium : Medium} {document : Json}
    {activities : List Activity} (h : activitiesOf? medium document = some activities) :
    ∀ a ∈ activities, a.periodCount < twoPow 32 := by
  intro a ha
  simp only [activitiesOf?, Option.bind_eq_bind, Option.bind_eq_some_iff] at h
  obtain ⟨m, -, hactivities⟩ := h
  rcases Fields.eq_or_exists_of_orElse? hactivities with rfl | ⟨_, hactivities⟩
  · cases ha
  · obtain ⟨_, ha⟩ := exists_of_mem_list? hactivities ha
    exact Activity.periodCount_lt_of_ofJson? ha

/-- The activities of a catalog that was built from a document. -/
theorem periodCount_lt_of_document {medium : Medium} {document : Option Json}
    {activities : List Activity} {catalog : Catalog}
    (h : document.bind (activitiesOf? medium) = some activities)
    (hcatalog : ofList activities = .ok catalog) :
    ∀ a ∈ catalog.toList, a.periodCount < twoPow 32 := by
  obtain ⟨value, -, hactivities⟩ := Option.bind_eq_some_iff.1 h
  exact fun a ha => periodCount_lt_of_activitiesOf? hactivities a (mem_of_ofList hcatalog a ha)

theorem periodCount_lt_of_ofJsonText {text : String} {catalog : Catalog}
    (h : ofJsonText text = .ok catalog) : ∀ a ∈ catalog.toList, a.periodCount < twoPow 32 := by
  unfold ofJsonText at h
  split at h
  · cases h
  · rename_i activities hactivities
    exact periodCount_lt_of_document hactivities h

theorem periodCount_lt_of_ofTomlText {text : String} {catalog : Catalog}
    (h : ofTomlText text = .ok catalog) : ∀ a ∈ catalog.toList, a.periodCount < twoPow 32 := by
  unfold ofTomlText at h
  split at h
  · cases h
  · rename_i activities hactivities
    exact periodCount_lt_of_document hactivities h

theorem mem_toList_of_find? {catalog : Catalog} {idOrName : String} {activity : Activity}
    (h : catalog.find? idOrName = some activity) : activity ∈ catalog.toList := by
  rw [find?, Option.orElse_eq_orElse, Option.orElse_eq_or, Option.or_eq_some_iff] at h
  obtain h | ⟨-, h⟩ := h
  · obtain ⟨id, -, h⟩ := Option.bind_eq_some_iff.1 h
    exact List.mem_of_find?_eq_some h
  · exact List.mem_of_find?_eq_some h

end Catalog

/-! ### Entries of a computation -/

theorem Record.forall_entries_put {record : Record} {changed : PeriodEntry} {bound : Nat}
    (hchanged : changed.period < bound) (h : ∀ entry ∈ record.entries, entry.period < bound) :
    ∀ entry ∈ (record.put changed).entries, entry.period < bound := by
  intro entry hentry
  obtain rfl | hentry := mem_putEntry hentry
  · exact hchanged
  · exact h entry hentry

theorem Computing.forall_entries_step {plan : Plan} {computing : Computing} {period bound : Nat}
    (hcount : plan.activity.periodCount < bound) (hperiod : period ≤ plan.activity.periodCount)
    (h : ∀ entry ∈ computing.record.entries, entry.period < bound) :
    ∀ entry ∈ (computing.step plan period).record.entries, entry.period < bound := by
  have hevaluated : ∀ entry ∈ (computing.record.put { computing.record.opened period with
      computed := (Outcome.ofView plan period (PeriodView.ofFields plan.fields
        (computing.record.entry? period))).texts plan.settings.numberFormat }).entries,
      entry.period < bound :=
    Record.forall_entries_put ((Record.period_opened _ period).trans_lt (by omega)) h
  simp only [step, carryOver]
  split
  · refine Record.forall_entries_put ?_ hevaluated
    rw [(Carrying.frame_ofRules _ _ _ _ _).1, Record.period_opened]
    omega
  · split
    · exact hevaluated
    · exact hevaluated

/-- A computation adds no entries of periods beyond those of the activity. -/
theorem Computation.forall_entries_ofRecord {plan : Plan} {record : Record} {bound : Nat}
    (range : PeriodRange) (hcount : plan.activity.periodCount < bound)
    (h : ∀ entry ∈ record.entries, entry.period < bound) :
    ∀ entry ∈ (ofRecord plan record range).record.entries, entry.period < bound := by
  refine List.foldlRecOn
    (motive := fun computing : Computing =>
      ∀ entry ∈ computing.record.entries, entry.period < bound)
    (range.periods plan.activity.periodCount) (Computing.step plan) h ?_
  intro computing hcomputing period hperiod
  exact Computing.forall_entries_step hcount (PeriodRange.mem_periods.1 hperiod).2.1 hcomputing

/-- A record that can be stored still can after it was computed and saved. -/
theorem Record.Storable.recomputed {plan : Plan} {record : Record} (h : record.Storable)
    (range : PeriodRange) (hcount : plan.activity.periodCount < twoPow 32)
    (hversion : record.version < twoPow 64 - 1) : (record.recomputed plan range).Storable := by
  have hidentity := Computation.identity_ofRecord plan record range
  refine ⟨?_, ?_, ?_, ?_, Computation.forall_entries_ofRecord range hcount h.entries⟩
  · rw [Record.recomputed, hidentity]
    exact h.client
  · rw [Record.recomputed, hidentity]
    exact h.activity
  · rw [Record.recomputed, hidentity]
    exact h.fiscalYear
  · show record.version + 1 < twoPow 64
    omega

end PeriodSheet
