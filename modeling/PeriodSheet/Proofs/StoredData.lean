import PeriodSheet.Catalog
import PeriodSheet.Proofs.Json.Text
import PeriodSheet.Proofs.Recompute
import PeriodSheet.Proofs.Stored.Records
import PeriodSheet.Proofs.Stored.Schemas

/-!
# Stored data survives

Records and activities are read back as they were written, and so is a catalog: the activities that
are read from its document build a catalog with the same activities under the same ids
(`stored_round_trip`).  All of this is told of data whose numbers have the widths that stored data
gives them.
-/

namespace PeriodSheet

open Json

/-! ### Catalogs -/

namespace Catalog

/-- The document of a catalog. -/
def document (catalog : Catalog) : Json :=
  .record [("activities", .ofList Activity.toJson catalog.toList)]

theorem activitiesOf?_document (medium : Medium) {catalog : Catalog}
    (h : ∀ activity ∈ catalog.toList, activity.Storable) :
    activitiesOf? medium catalog.document = some (catalog.toList.map (·.readBack)) := by
  obtain ⟨m, hfields, hm⟩ := exists_fields medium [["activities"]]
    [("activities", some (.ofList Activity.toJson catalog.toList))] (by decide) rfl
  show activitiesOf? medium
    (ofSlots [("activities", some (.ofList Activity.toJson catalog.toList))]) = _
  unfold activitiesOf?
  exact reads_next hfields (hm.orElse? rfl (mapM_map_eq_some fun activity hmem =>
    Activity.ofJson?_toJson medium (h activity hmem)))

/-- An activity whose id comes after all others is put behind them. -/
theorem insertActivity_of_forall_lt {activity : Activity} {activities : List Activity}
    (h : ∀ other ∈ activities, other.id < activity.id) :
    insertActivity activity activities = activities ++ [activity] := by
  induction activities with
  | nil => rfl
  | cons other rest ih =>
    obtain ⟨hother, hrest⟩ := List.forall_mem_cons.1 h
    rw [insertActivity, if_neg (by omega), if_neg (by omega), ih hrest, List.cons_append]

/-- Activities whose ids ascend beyond those of a catalog are added to it, one after the other. -/
theorem foldlM_insert (activities : List Activity) (catalog : Catalog)
    (h : (catalog.activities ++ activities).Pairwise fun a b => a.id < b.id) :
    ∃ rebuilt, activities.foldlM (fun catalog activity =>
        if (catalog.get? activity.id).isSome then .error (.duplicateId activity.id)
        else .ok (catalog.insert activity)) catalog = (.ok rebuilt : Except CatalogError Catalog) ∧
      rebuilt.activities = catalog.activities ++ activities := by
  induction activities generalizing catalog with
  | nil => exact ⟨catalog, rfl, (List.append_nil _).symm⟩
  | cons activity rest ih =>
    have hlt : ∀ other ∈ catalog.activities, other.id < activity.id := fun other hother =>
      (List.pairwise_append.1 h).2.2 other hother activity List.mem_cons_self
    have hfree : catalog.get? activity.id = none := by
      rw [get?, List.find?_eq_none]
      intro other hother heq
      have := hlt other hother
      rw [eq_of_beq heq] at this
      exact Int.lt_irrefl _ this
    have hinsert : (catalog.insert activity).activities = catalog.activities ++ [activity] :=
      insertActivity_of_forall_lt hlt
    obtain ⟨rebuilt, hfold, hactivities⟩ := ih (catalog.insert activity)
      (by rwa [hinsert, List.append_assoc])
    refine ⟨rebuilt, ?_, ?_⟩
    · rw [List.foldlM_cons, hfree]
      exact hfold
    · rw [hactivities, hinsert, List.append_assoc]
      rfl

/-- The activities that are read from the document of a catalog build it anew. -/
theorem exists_rebuilt (medium : Medium) {catalog : Catalog}
    (h : ∀ activity ∈ catalog.toList, activity.Storable) :
    ∃ activities rebuilt, activitiesOf? medium catalog.document = some activities ∧
      ofList activities = .ok rebuilt ∧
      rebuilt.activities = catalog.activities.map (·.readBack) := by
  have hascending : (catalog.activities.map (·.readBack)).Pairwise fun a b => a.id < b.id :=
    List.pairwise_map.2 catalog.ascending
  obtain ⟨rebuilt, hrebuilt, hactivities⟩ := foldlM_insert _ .empty hascending
  exact ⟨_, rebuilt, activitiesOf?_document medium h, hrebuilt, hactivities⟩

/-- The text of a catalog's document is read as that catalog. -/
theorem exists_ofJsonText {catalog : Catalog}
    (h : ∀ activity ∈ catalog.toList, activity.Storable) :
    ∃ rebuilt, ofJsonText catalog.document.pretty = .ok rebuilt ∧
      rebuilt.activities = catalog.activities.map (·.readBack) := by
  obtain ⟨activities, rebuilt, hread, hrebuilt, hactivities⟩ := exists_rebuilt .json h
  have hplain : Plain 7 catalog.document :=
    .record (List.forall_mem_singleton.2
      (.ofList fun activity hmem => Activity.plain_toJson (h activity hmem)))
  refine ⟨rebuilt, ?_, hactivities⟩
  rw [ofJsonText, parse?_pretty hplain (by decide), Option.bind_some, hread]
  exact hrebuilt

end Catalog

/-! ### All stored data -/

/-- **Stored data survives.**  A record is read back as it was written, with the spelling of all
names.  An activity is read back as an equal one, plain or with periods; and the activities of a
catalog that are read back build a catalog with equal activities under the same ids. -/
theorem stored_round_trip (medium : Medium) :
    (∀ record : Record, record.Storable → Record.ofJson? record.toJson = some record) ∧
    (∀ activity : Activity, activity.Storable → ∃ read,
      Activity.ofJson? medium activity.toJson = some read ∧
        read.canonical = activity.canonical) ∧
    ∀ catalog : Catalog, (∀ activity ∈ catalog.toList, activity.Storable) →
      ∃ activities rebuilt, Catalog.activitiesOf? medium catalog.document = some activities ∧
        Catalog.ofList activities = .ok rebuilt ∧ catalog.same rebuilt = true ∧
        ∀ id, (rebuilt.get? id).map (·.canonical) = (catalog.get? id).map (·.canonical) := by
  refine ⟨fun record => Record.ofJson?_toJson, fun activity hactivity => ?_,
    fun catalog hcatalog => ?_⟩
  · exact ⟨activity.readBack, Activity.ofJson?_toJson medium hactivity, activity.canonical_readBack⟩
  · obtain ⟨activities, rebuilt, hread, hrebuilt, hactivities⟩ :=
      Catalog.exists_rebuilt medium hcatalog
    refine ⟨activities, rebuilt, hread, hrebuilt, ?_, fun id => ?_⟩
    · rw [Catalog.same, hactivities, List.map_map]
      exact beq_iff_eq.2 (List.map_congr_left fun activity _ => activity.canonical_readBack.symm)
    · rw [Catalog.get?, Catalog.get?, hactivities, List.find?_map, Option.map_map]
      exact Option.map_congr fun activity _ => activity.canonical_readBack

/-- Credits with a carried previous credit, and a catalog of them. -/
theorem stored_round_trip_credits :
    let record := Credits.record "300" (NameMap.empty.insert Credits.previous "5")
      (NameMap.empty.insert Credits.previous ())
    let activity := Credits.activity [Credits.creditRule, Credits.shareRule]
    let catalog := Catalog.empty.insert activity
    record.Storable ∧ activity.Storable ∧ (∀ activity ∈ catalog.toList, activity.Storable) ∧
      Record.ofJson? record.toJson = some record ∧
      (∃ read, Activity.ofJson? .json activity.toJson = some read ∧
        read.canonical = activity.canonical) ∧
      ∃ activities rebuilt, Catalog.activitiesOf? .json catalog.document = some activities ∧
        Catalog.ofList activities = .ok rebuilt ∧ catalog.same rebuilt = true := by
  intro record activity catalog
  have hrecord : record.Storable := by decide
  have hactivity : activity.Storable := by decide +kernel
  have hcatalog : ∀ activity ∈ catalog.toList, activity.Storable := by decide +kernel
  obtain ⟨hrecords, hactivities, hcatalogs⟩ := stored_round_trip .json
  obtain ⟨activities, rebuilt, hread, hrebuilt, hsame, -⟩ := hcatalogs catalog hcatalog
  exact ⟨hrecord, hactivity, hcatalog, hrecords record hrecord, hactivities activity hactivity,
    activities, rebuilt, hread, hrebuilt, hsame⟩

end PeriodSheet
