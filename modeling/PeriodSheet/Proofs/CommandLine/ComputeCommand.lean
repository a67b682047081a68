import PeriodSheet.Proofs.CommandLine.Running
import PeriodSheet.Proofs.StoreContents

/-!
# Outcomes of a request to compute

The request is taken apart into the stages that its files go through: the loading, the computing of
the store, the writing back and the report.

* **`Prepared`** holds where all that the request needs is there.
* **`Computes`** lists what may become of a request, with the files after it; nothing is written
  before the store is computed (`computes`).
-/

namespace PeriodSheet.CommandLine

open Text

namespace ComputeRequest

/-- Whether a request selects a record of an activity. -/
def selects (request : ComputeRequest) (activity : Activity) (record : Record) : Bool :=
  record.activity == activity.id && request.client.all (· == record.client) &&
    request.year.all (some · == record.fiscalYear)

/-- The plan that the records of a request are computed by. -/
def plan (request : ComputeRequest) (settings : Settings) (activity : Activity) : Plan :=
  .ofActivity
    (if request.overwriteCarry then { settings with carryPolicy := .overwrite } else settings)
    activity

theorem selected_eq (request : ComputeRequest) (activity : Activity) (store : RecordStore) :
    request.selected activity store =
      (store.toList.filter (request.selects activity)).map (·.key) :=
  List.filter_map

theorem mem_selected {request : ComputeRequest} {activity : Activity} {store : RecordStore}
    {record : Record} (h : record ∈ store.toList) :
    record.key ∈ request.selected activity store ↔ request.selects activity record = true := by
  rw [selected, List.mem_filter]
  exact and_iff_right (List.mem_map_of_mem h)

theorem selected_ofList_eq_nil_iff {request : ComputeRequest} {activity : Activity}
    {records : List Record} (hkeys : (records.map (·.key)).Nodup) :
    request.selected activity (.ofList records) = [] ↔
      ¬ ∃ record ∈ records, request.selects activity record = true := by
  rw [selected_eq, List.map_eq_nil_iff, List.filter_eq_nil_iff]
  simp only [(RecordStore.toList_ofList_perm hkeys).mem_iff, not_exists, not_and]

end ComputeRequest

/-! ### Stages -/

/-- Prints the computed sheets, or writes them into the file that the request names. -/
def report (painting : Bool) (request : ComputeRequest) (computations : List Computation) :
    Task Finish := do
  let text := written request.format painting computations
  match request.output with
  | none => return { printed := text }
  | some path =>
    Task.writeText path text ("Failed to write output to: " ++ path)
    return { printed := "Results saved to: " ++
      { letters := some .brightGreen : Paint }.apply painting path ++ "\n" }

/-- Writes the computed records back, if the request asks for that, and reports. -/
def saveAndReport (painting : Bool) (request : ComputeRequest) (store : RecordStore)
    (computations : List Computation) : Task Finish := do
  if request.writeBack then
    Task.writeText request.values (recordsText store)
      ("Failed to write records to: " ++ request.values)
  report painting request computations

/-- Computes the selected ones among the records that were loaded. -/
def computeLoaded (painting : Bool) (request : ComputeRequest) (plan : Plan) (activity : Activity)
    (records : List Record) : Task Finish := do
  let store := RecordStore.ofList records
  let keys := request.selected activity store
  if keys.isEmpty then
    Task.fail ("No records of activity '" ++ activity.name ++ "' match the selection")
  match recomputeAll plan request.range store keys with
  | .error (key, error) =>
    throw [.message ("Failed to compute " ++ key.describe), .message error.message]
  | .ok (store, computations) => saveAndReport painting request store computations

theorem compute_eq (surroundings : Surroundings) (settings : Settings) {request : ComputeRequest}
    (h : ∀ last ∈ request.range.last, request.range.first ≤ last) :
    compute surroundings settings request =
      loadCatalog request.schema >>= fun catalog =>
        findActivity catalog request.activity >>= fun activity =>
          loadRecords request.values >>=
            computeLoaded (surroundings.painting && !request.noColour) request
              (request.plan settings activity) activity := by
  unfold compute
  cases hlast : request.range.last with
  | none => rfl
  | some last =>
    have hfirst : ¬ last < request.range.first := Nat.not_lt.2 (h last hlast)
    simp only [if_neg hfirst]
    rfl

theorem runOn_compute_of_lt (surroundings : Surroundings) (settings : Settings)
    {request : ComputeRequest} {last : Nat} (hlast : request.range.last = some last)
    (h : last < request.range.first) (tree : FileTree) :
    ∃ causes, (compute surroundings settings request).runOn tree = (.error causes, tree) := by
  unfold compute
  simp only [hlast, if_pos h]
  exact ⟨_, rfl⟩

theorem runOn_computeLoaded_of_nil (painting : Bool) {request : ComputeRequest} (plan : Plan)
    {activity : Activity} {records : List Record}
    (h : request.selected activity (.ofList records) = []) (tree : FileTree) :
    ∃ causes, (computeLoaded painting request plan activity records).runOn tree =
      (.error causes, tree) := by
  unfold computeLoaded
  simp only [h]
  exact ⟨_, rfl⟩

theorem computeLoaded_of_ok (painting : Bool) {request : ComputeRequest} {plan : Plan}
    {activity : Activity} {records : List Record} {store : RecordStore}
    {computations : List Computation} (h : request.selected activity (.ofList records) ≠ [])
    (hcomputed : recomputeAll plan request.range (.ofList records)
      (request.selected activity (.ofList records)) = .ok (store, computations)) :
    computeLoaded painting request plan activity records =
      saveAndReport painting request store computations := by
  unfold computeLoaded
  simp only [hcomputed, List.isEmpty_iff, if_neg h]

theorem resultOn_findActivity_iff {catalog : Catalog} {idOrName : String} {activity : Activity}
    {tree : FileTree} : (findActivity catalog idOrName).resultOn tree = .ok activity ↔
      catalog.find? idOrName = some activity := by
  unfold findActivity
  cases catalog.find? idOrName with
  | none => exact ⟨nofun, nofun⟩
  | some found => exact ⟨fun h => congrArg some (Except.ok.inj h),
      fun h => congrArg Except.ok (Option.some.inj h)⟩

/-! ### Outcomes -/

/-- Whether all that a request needs is there: settings, a range that is not reversed, the activity,
and records of it that the request selects. -/
structure Prepared (surroundings : Surroundings) (config : Option String)
    (request : ComputeRequest) (tree : FileTree) (settings : Settings) (activity : Activity)
    (records : List Record) : Prop where
  hasSettings : (loadSettings surroundings config).resultOn tree = .ok settings
  hasRange : ∀ last ∈ request.range.last, request.range.first ≤ last
  hasActivity : ∃ catalog, (loadCatalog request.schema).resultOn tree = .ok catalog ∧
    catalog.find? request.activity = some activity
  hasRecords : (loadRecords request.values).resultOn tree = .ok records
  hasSelected : ∃ record ∈ records, request.selects activity record = true

theorem Prepared.find?_eq {surroundings : Surroundings} {config : Option String}
    {request : ComputeRequest} {tree : FileTree} {settings : Settings} {activity : Activity}
    {records : List Record} {catalog : Catalog}
    (h : Prepared surroundings config request tree settings activity records)
    (hcatalog : (loadCatalog request.schema).resultOn tree = .ok catalog) :
    catalog.find? request.activity = some activity := by
  obtain ⟨_, hcatalog', hfind⟩ := h.hasActivity
  obtain rfl := Except.ok.inj (hcatalog.symm.trans hcatalog')
  exact hfind

/-- The files after the records of a store were written back, if the request asks for that. -/
inductive Saves (request : ComputeRequest) (store : RecordStore) (tree : FileTree) :
    FileTree → Prop where
  | skipped (h : request.writeBack = false) : Saves request store tree tree
  | written {left : FileTree} (h : request.writeBack = true)
      (hwrite : tree.write? request.values (recordsText store) = some left) :
      Saves request store tree left

/-- What may become of a store that was computed: the result, and the files after it. -/
inductive Concludes (request : ComputeRequest) (store : RecordStore) (tree : FileTree) :
    Except (List Cause) Finish × FileTree → Prop where
  | unsaved (causes : List Cause) (h : request.writeBack = true)
      (hwrite : tree.write? request.values (recordsText store) = none) :
      Concludes request store tree (.error causes, tree)
  | printed {left : FileTree} (hsaves : Saves request store tree left)
      (houtput : request.output = none) (text : String) :
      Concludes request store tree (.ok { printed := text }, left)
  | exported {left after : FileTree} {path content : String}
      (hsaves : Saves request store tree left) (houtput : request.output = some path)
      (hwrite : left.write? path content = some after) (text : String) :
      Concludes request store tree (.ok { printed := text }, after)
  | unexported {left : FileTree} {path : String} (hsaves : Saves request store tree left)
      (houtput : request.output = some path) :
      Concludes request store tree
        (.error [.message ("Failed to write output to: " ++ path), .detail], left)

/-- What may become of a request: the result, and the files after it. -/
inductive Computes (surroundings : Surroundings) (config : Option String)
    (request : ComputeRequest) (tree : FileTree) :
    Except (List Cause) Finish × FileTree → Prop where
  | unprepared (causes : List Cause)
      (h : ∀ settings activity records,
        ¬ Prepared surroundings config request tree settings activity records) :
      Computes surroundings config request tree (.error causes, tree)
  | computed {settings : Settings} {activity : Activity} {records : List Record}
      {store : RecordStore} {outcome : Except (List Cause) Finish × FileTree}
      (hprepared : Prepared surroundings config request tree settings activity records)
      (hstore : store.toList = (RecordStore.ofList records).toList.map fun record =>
        if request.selects activity record then
          record.recomputed (request.plan settings activity) request.range
        else record)
      (h : Concludes request store tree outcome) :
      Computes surroundings config request tree outcome

theorem concludes (painting : Bool) (request : ComputeRequest) (store : RecordStore)
    (computations : List Computation) (tree : FileTree) :
    Concludes request store tree
      ((saveAndReport painting request store computations).runOn tree) := by
  have hreport : ∀ {left : FileTree}, Saves request store tree left →
      Concludes request store tree ((report painting request computations).runOn left) := by
    intro left hsaves
    unfold report
    cases houtput : request.output with
    | none => exact .printed hsaves houtput _
    | some path =>
      dsimp only
      cases hwrite : left.write? path (written request.format painting computations) with
      | none =>
        rw [Task.runOn_bind_of_error (Task.runOn_writeText_of_none hwrite _)]
        exact .unexported hsaves houtput
      | some after =>
        rw [Task.runOn_bind_of_ok (Task.runOn_writeText_of_some hwrite _)]
        exact .exported hsaves houtput hwrite _
  unfold saveAndReport
  cases hback : request.writeBack with
  | false => exact hreport (.skipped hback)
  | true =>
    rw [if_pos rfl]
    cases hwrite : tree.write? request.values (recordsText store) with
    | none =>
      rw [Task.runOn_bind_of_error (Task.runOn_writeText_of_none hwrite _)]
      exact .unsaved _ hback hwrite
    | some left =>
      rw [Task.runOn_bind_of_ok (Task.runOn_writeText_of_some hwrite _)]
      exact hreport (.written hback hwrite)

/-- The selected ones among some records are computed, whatever is selected. -/
theorem exists_recomputeAll_selected (request : ComputeRequest) (plan : Plan) (activity : Activity)
    {records : List Record} (hkeys : (records.map (·.key)).Nodup)
    (hversions : ∀ record ∈ records, record.version < twoPow 64 - 1) :
    ∃ store computations, recomputeAll plan request.range (.ofList records)
        (request.selected activity (.ofList records)) = .ok (store, computations) ∧
      store.toList = (RecordStore.ofList records).toList.map fun record =>
        if request.selects activity record then record.recomputed plan request.range
        else record := by
  have hnodup : (request.selected activity (.ofList records)).Nodup :=
    (RecordStore.ofList records).nodup_keys.filter _
  have hget : ∀ key ∈ request.selected activity (.ofList records), ∃ record,
      (RecordStore.ofList records).get? key = some record ∧ record.version < twoPow 64 - 1 := by
    intro key hkey
    obtain ⟨record, hmem, rfl⟩ := List.mem_map.1 (List.mem_filter.1 hkey).1
    exact ⟨record, RecordStore.get?_of_mem hmem,
      hversions record ((RecordStore.toList_ofList_perm hkeys).mem_iff.1 hmem)⟩
  obtain ⟨store, computations, hcomputed, hstore⟩ :=
    exists_recomputeAll plan request.range hnodup hget
  refine ⟨store, computations, hcomputed, hstore.trans (List.map_congr_left fun record hmem => ?_)⟩
  exact if_congr (ComputeRequest.mem_selected hmem) rfl rfl

theorem computes (surroundings : Surroundings) (config : Option String) (request : ComputeRequest)
    (tree : FileTree)
    (hkeys : ∀ records, (loadRecords request.values).resultOn tree = .ok records →
      (records.map (·.key)).Nodup ∧ ∀ record ∈ records, record.version < twoPow 64 - 1) :
    Computes surroundings config request tree
      ((loadSettings surroundings config >>= fun settings =>
        compute surroundings settings request).runOn tree) := by
  -- each stage that only reads either ends the request, files unchanged, or hands on what it read
  obtain ⟨causes, hresult, hrun⟩ | ⟨settings, hsettings, hrun⟩ :=
    (onlyReads_loadSettings surroundings config).runOn_bind _ tree
  · rw [hrun]
    refine .unprepared causes fun _ _ _ hprepared => ?_
    rw [hprepared.hasSettings] at hresult
    cases hresult
  rw [hrun]
  by_cases hrange : ∀ last ∈ request.range.last, request.range.first ≤ last
  case neg =>
    simp only [not_forall, Nat.not_le] at hrange
    obtain ⟨last, hlast, hlt⟩ := hrange
    obtain ⟨causes, hcauses⟩ := runOn_compute_of_lt surroundings settings hlast hlt tree
    rw [hcauses]
    exact .unprepared causes fun _ _ _ hprepared =>
      absurd (hprepared.hasRange last hlast) (Nat.not_le.2 hlt)
  rw [compute_eq surroundings settings hrange]
  obtain ⟨causes, hresult, hrun⟩ | ⟨catalog, hcatalog, hrun⟩ :=
    (onlyReads_loadCatalog request.schema).runOn_bind _ tree
  · rw [hrun]
    refine .unprepared causes fun _ _ _ hprepared => ?_
    obtain ⟨_, hcatalog, -⟩ := hprepared.hasActivity
    rw [hcatalog] at hresult
    cases hresult
  rw [hrun]
  obtain ⟨causes, hresult, hrun⟩ | ⟨activity, hactivity, hrun⟩ :=
    (onlyReads_findActivity catalog request.activity).runOn_bind _ tree
  · rw [hrun]
    refine .unprepared causes fun _ activity _ hprepared => ?_
    rw [findActivity, hprepared.find?_eq hcatalog] at hresult
    cases hresult
  rw [hrun]
  obtain ⟨causes, hresult, hrun⟩ | ⟨records, hrecords, hrun⟩ :=
    (onlyReads_loadRecords request.values).runOn_bind _ tree
  · rw [hrun]
    refine .unprepared causes fun _ _ _ hprepared => ?_
    rw [hprepared.hasRecords] at hresult
    cases hresult
  rw [hrun]
  obtain ⟨hnodup, hversions⟩ := hkeys records hrecords
  have hfind := resultOn_findActivity_iff.1 hactivity
  have hnone : request.selected activity (.ofList records) = [] ↔ _ :=
    ComputeRequest.selected_ofList_eq_nil_iff hnodup
  by_cases hselected : ∃ record ∈ records, request.selects activity record = true
  case neg =>
    obtain ⟨causes, hrun⟩ := runOn_computeLoaded_of_nil
      (surroundings.painting && !request.noColour) (request.plan settings activity)
      (hnone.2 hselected) tree
    rw [hrun]
    refine .unprepared causes fun _ _ _ hprepared => hselected ?_
    obtain rfl := Option.some.inj (hfind.symm.trans (hprepared.find?_eq hcatalog))
    obtain rfl := Except.ok.inj (hrecords.symm.trans hprepared.hasRecords)
    exact hprepared.hasSelected
  obtain ⟨store, computations, hcomputed, hstore⟩ :=
    exists_recomputeAll_selected request (request.plan settings activity) activity hnodup hversions
  rw [computeLoaded_of_ok _ (mt hnone.1 (not_not.2 hselected)) hcomputed]
  exact .computed ⟨hsettings, hrange, ⟨catalog, hcatalog, hfind⟩, hrecords, hselected⟩ hstore
    (concludes _ request store computations tree)

end PeriodSheet.CommandLine
