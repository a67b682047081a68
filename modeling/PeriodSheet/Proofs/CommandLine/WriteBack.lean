import PeriodSheet.Proofs.CommandLine.ComputeCommand
import PeriodSheet.Proofs.CommandLine.Files
import PeriodSheet.Proofs.Json.Text
import PeriodSheet.Proofs.Stored.Computed
import PeriodSheet.Proofs.StoredData

/-!
# Records written back

What a request to compute leaves in the file that it read the records from.  Loaded records are in
the form of stored data, and stay so when they are computed; so the text that is written holds all
of them (`parse?_ofList_records`), and is still there when the report is written into another file
(`Concludes.read`).
-/

namespace PeriodSheet.CommandLine

open Json

/-! ### Loaded data -/

theorem resultOn_loadRecords_iff {path : String} {tree : FileTree} {records : List Record} :
    (loadRecords path).resultOn tree = .ok records ↔ ∃ content, tree.read path = .text content ∧
      (Json.parse? content).bind (Json.list? Record.ofJson?) = some records := by
  refine (Task.OnlyReads.readText path _ _).resultOn_bind_iff.trans ?_
  refine exists_congr fun content => and_congr Task.resultOn_readText_iff ?_
  cases (Json.parse? content).bind (Json.list? Record.ofJson?) with
  | none => exact ⟨nofun, nofun⟩
  | some read => exact ⟨fun h => congrArg some (Except.ok.inj h),
      fun h => congrArg Except.ok (Option.some.inj h)⟩

/-- Records were loaded from a text that is not empty. -/
theorem exists_text_of_loadRecords {path : String} {tree : FileTree} {records : List Record}
    (h : (loadRecords path).resultOn tree = .ok records) :
    ∃ content, tree.read path = .text content ∧ content ≠ "" := by
  obtain ⟨content, hread, hparse⟩ := resultOn_loadRecords_iff.1 h
  refine ⟨content, hread, ?_⟩
  rintro rfl
  rw [show Json.parse? "" = none by decide] at hparse
  cases hparse

theorem storable_of_loadRecords {path : String} {tree : FileTree} {records : List Record}
    (h : (loadRecords path).resultOn tree = .ok records) : ∀ record ∈ records, record.Storable := by
  obtain ⟨content, -, hparse⟩ := resultOn_loadRecords_iff.1 h
  obtain ⟨value, -, hrecords⟩ := Option.bind_eq_some_iff.1 hparse
  intro record hmem
  obtain ⟨_, hrecord⟩ := exists_of_mem_list? hrecords hmem
  exact Record.storable_of_ofJson? hrecord

theorem periodCount_lt_of_loadCatalog {path : String} {tree : FileTree} {catalog : Catalog}
    (h : (loadCatalog path).resultOn tree = .ok catalog) :
    ∀ a ∈ catalog.toList, a.periodCount < twoPow 32 := by
  obtain ⟨content, -, h⟩ := (Task.OnlyReads.readText path _ _).resultOn_bind_iff.1 h
  dsimp only at h
  split at h
  · cases h
  · rename_i read hread
    split at h
    · cases h
    · obtain rfl : read = catalog := Except.ok.inj h
      split at hread
      · exact Catalog.periodCount_lt_of_ofJsonText hread
      · exact Catalog.periodCount_lt_of_ofTomlText hread

theorem resultOn_loadCatalog_of_json {path content : String} {tree : FileTree} {catalog : Catalog}
    (hread : tree.read path = .text content) (hpath : isJsonPath path = true)
    (hcatalog : Catalog.ofJsonText content = .ok catalog) (hsize : catalog.size ≠ 0) :
    (loadCatalog path).resultOn tree = .ok catalog := by
  refine (Task.OnlyReads.readText path _ _).resultOn_bind_iff.2
    ⟨content, Task.resultOn_readText_iff.2 hread, ?_⟩
  simp only [hpath, if_true, hcatalog, if_neg hsize]
  rfl

/-! ### Written records -/

/-- The text of some records holds them. -/
theorem parse?_ofList_records {records : List Record} (h : ∀ record ∈ records, record.Storable) :
    (Json.parse? (Json.ofList Record.toJson records).pretty).bind (Json.list? Record.ofJson?) =
      some records := by
  have hplain : Plain 5 (Json.ofList Record.toJson records) :=
    .ofList fun record hmem => Record.plain_toJson (h record hmem)
  rw [parse?_pretty hplain (by decide)]
  exact list?_ofList fun record hmem => Record.ofJson?_toJson (h record hmem)

/-- The records of a store that was computed for a request can be stored. -/
theorem Prepared.storable {surroundings : Surroundings} {config : Option String}
    {request : ComputeRequest} {tree : FileTree} {settings : Settings} {activity : Activity}
    {records : List Record} {store : RecordStore}
    (h : Prepared surroundings config request tree settings activity records)
    (hkeys : (records.map (·.key)).Nodup)
    (hversions : ∀ record ∈ records, record.version < twoPow 64 - 1)
    (hstore : store.toList = (RecordStore.ofList records).toList.map fun record =>
      if request.selects activity record then
        record.recomputed (request.plan settings activity) request.range
      else record) :
    ∀ record ∈ store.toList, record.Storable := by
  obtain ⟨catalog, hcatalog, hfind⟩ := h.hasActivity
  have hcount : activity.periodCount < twoPow 32 :=
    periodCount_lt_of_loadCatalog hcatalog activity (Catalog.mem_toList_of_find? hfind)
  rw [hstore, List.forall_mem_map]
  intro record hmem
  have hrecord : record ∈ records := (RecordStore.toList_ofList_perm hkeys).mem_iff.1 hmem
  have hstorable := storable_of_loadRecords h.hasRecords record hrecord
  split
  · exact hstorable.recomputed request.range hcount (hversions record hrecord)
  · exact hstorable

section
variable {request : ComputeRequest} {store : RecordStore} {tree left : FileTree} {old : String}

/-- What the values file holds after the saving, where it held a text; no path leads elsewhere. -/
theorem Saves.read (h : Saves request store tree left)
    (hread : tree.read request.values = .text old) (hold : old ≠ "") :
    left.read request.values =
        .text (if request.writeBack then recordsText store else old) ∧
      ∀ path, left.placeOf? path = tree.placeOf? path := by
  cases h with
  | skipped hback =>
    rw [hback]
    exact ⟨hread, fun _ => rfl⟩
  | written hback hwrite =>
    rw [hback]
    exact FileTree.read_write?_self hread hold hwrite

/-- A result leaves the values file as the saving left it; a failure leaves all files as they were,
unless the report could not be written. -/
theorem Concludes.read {outcome : Except (List Cause) Finish × FileTree}
    (h : Concludes request store tree outcome) (hread : tree.read request.values = .text old)
    (hold : old ≠ "")
    (houtput : ∀ path ∈ request.output, ∀ place, tree.placeOf? path = some place →
      tree.placeOf? request.values ≠ some place) :
    outcome.2 = tree ∧ (∃ causes, outcome.1 = .error causes) ∧ request.writeBack = true ∧
        tree.write? request.values (recordsText store) = none ∨
      outcome.2.read request.values =
          .text (if request.writeBack then recordsText store else old) ∧
        ((∃ text, outcome.1 = .ok { printed := text }) ∨ ∃ path ∈ request.output,
          outcome.1 =
            .error [.message ("Failed to write output to: " ++ path), .detail]) := by
  cases h with
  | unsaved causes hback hwrite => exact .inl ⟨rfl, ⟨causes, rfl⟩, hback, hwrite⟩
  | printed hsaves hnone text => exact .inr ⟨(hsaves.read hread hold).1, .inl ⟨text, rfl⟩⟩
  | unexported hsaves hsome =>
    exact .inr ⟨(hsaves.read hread hold).1, .inr ⟨_, hsome, rfl⟩⟩
  | exported hsaves hsome hwrite text =>
    obtain ⟨hsaved, hplaces⟩ := hsaves.read hread hold
    refine .inr ⟨FileTree.read_write?_of_ne hsaved hwrite fun place hplace => ?_, .inl ⟨text, rfl⟩⟩
    rw [hplaces] at hplace ⊢
    exact houtput _ hsome place hplace

end

/-! ### Running the command -/

theorem runOn_script_compute (surroundings : Surroundings) (config : Option String)
    (verbose : Bool) (request : ComputeRequest) (tree : FileTree) :
    (Invocation.script surroundings ⟨config, verbose, .compute request⟩).runOn tree =
      (.ofResult ((loadSettings surroundings config >>= fun settings =>
          compute surroundings settings request).runOn tree).1,
        ((loadSettings surroundings config >>= fun settings =>
          compute surroundings settings request).runOn tree).2) := by
  unfold Invocation.script
  rw [Script.runOn_bind]
  rfl

/-- **Writing back replaces the selected records, and nothing else.**  Take a values file whose
records have distinct keys and can be saved once more, and a report that goes to another file, if to
any.  Whatever schema, settings and flags are given:

* a request with `writeBack` that succeeds leaves a values file that is read as the records in the
  order of their keys, where the selected ones are computed and one version on;
* a request without `writeBack` leaves the values file as it was;
* a request that lacks what it needs (settings, a proper range, the activity, readable records, a
  selected one) fails and leaves all files as they were;
* so does any other failure, unless it is that the report could not be written, which comes last;
* a request that lacks nothing succeeds, if the values file can be written and the report is
  printed. -/
theorem compute_write_back (surroundings : Surroundings) (config : Option String) (verbose : Bool)
    (request : ComputeRequest) (tree : FileTree)
    (hkeys : ∀ records, (loadRecords request.values).resultOn tree = .ok records →
      (records.map (·.key)).Nodup ∧ ∀ record ∈ records, record.version < twoPow 64 - 1)
    (houtput : ∀ path ∈ request.output, ∀ place, tree.placeOf? path = some place →
      tree.placeOf? request.values ≠ some place) :
    let ended := (Invocation.script surroundings ⟨config, verbose, .compute request⟩).runOn tree
    let failure := ended.1.failure
    let after := ended.2
    (failure = none → request.writeBack = true → ∃ settings activity records,
      Prepared surroundings config request tree settings activity records ∧
      ∃ sorted : List Record, sorted.Perm records ∧
        (sorted.Pairwise fun a b => a.key.Before b.key) ∧
        (loadRecords request.values).resultOn after = .ok (sorted.map fun record =>
          if request.selects activity record then
            record.recomputed (request.plan settings activity) request.range
          else record)) ∧
    (request.writeBack = false → after.read request.values = tree.read request.values) ∧
    ((¬ ∃ settings activity records,
        Prepared surroundings config request tree settings activity records) →
      failure ≠ none ∧ after = tree) ∧
    (∀ causes, failure = some causes → after = tree ∨ ∃ path ∈ request.output,
      causes = [.message ("Failed to write output to: " ++ path), .detail]) ∧
    (∀ settings activity records,
      Prepared surroundings config request tree settings activity records →
      (∀ place, tree.placeOf? request.values = some place → tree.isDirectory place = false) →
      request.output = none → failure = none) := by
  intro ended failure after
  have hcomputes := computes surroundings config request tree hkeys
  simp only [ended, failure, after, runOn_script_compute]
  generalize (loadSettings surroundings config >>= fun settings =>
    compute surroundings settings request).runOn tree = outcome at hcomputes ⊢
  cases hcomputes with
  | unprepared causes hnone =>
    refine ⟨nofun, fun _ => rfl, fun _ => ⟨nofun, rfl⟩, fun _ _ => .inl rfl, ?_⟩
    intro settings activity records hprepared
    exact absurd hprepared (hnone settings activity records)
  | @computed settings activity records store _ hprepared hstore hconcludes =>
    obtain ⟨hnodup, hversions⟩ := hkeys records hprepared.hasRecords
    obtain ⟨old, hread, hold⟩ := exists_text_of_loadRecords hprepared.hasRecords
    have hperm := RecordStore.toList_ofList_perm hnodup
    have hloaded : ∀ left : FileTree, left.read request.values = .text (recordsText store) →
        (loadRecords request.values).resultOn left = .ok store.toList := fun left hleft =>
      resultOn_loadRecords_iff.2
        ⟨_, hleft, parse?_ofList_records (hprepared.storable hnodup hversions hstore)⟩
    rcases hconcludes.read hread hold houtput with
      ⟨hafter, ⟨causes, hcauses⟩, hback, hwrite⟩ | ⟨hafter, hresult⟩
    · rw [hcauses, hafter, hback]
      refine ⟨nofun, nofun, fun hnone => absurd ⟨_, _, _, hprepared⟩ hnone, fun _ _ => .inl rfl, ?_⟩
      intro _ _ _ _ hplaces _
      obtain ⟨left, hleft⟩ := FileTree.exists_write? hread hplaces (recordsText store)
      rw [hleft] at hwrite
      cases hwrite
    · refine ⟨fun _ hback => ?_, fun hback => ?_, fun hnone => absurd ⟨_, _, _, hprepared⟩ hnone,
        fun causes hcauses => ?_, fun _ _ _ _ _ hnone => ?_⟩
      · rw [hback] at hafter
        refine ⟨settings, activity, records, hprepared, _, hperm,
          (RecordStore.ofList records).ascending, ?_⟩
        rw [hloaded _ hafter, hstore]
      · rw [hafter, hread, hback]
        rfl
      · obtain ⟨text, htext⟩ | ⟨path, hpath, hresult⟩ := hresult
        · rw [htext] at hcauses
          cases hcauses
        · rw [hresult] at hcauses
          exact .inr ⟨path, hpath, (Option.some.inj hcauses).symm⟩
      · obtain ⟨text, htext⟩ | ⟨path, hpath, -⟩ := hresult
        · rw [htext]
          rfl
        · rw [hnone] at hpath
          cases hpath

namespace Credits

/-- The files of a schema and of some records. -/
def files (schema values : String) : FileTree :=
  .ofList [("credits.json", schema), ("records.json", values)]

section
variable (schema values : String)

theorem read_schema : (files schema values).read "credits.json" = .text schema :=
  rfl

theorem read_values : (files schema values).read "records.json" = .text values :=
  rfl

theorem read_settings : (files schema values).read "settings.toml" = .missing :=
  rfl

theorem isDirectory_values {place : List String}
    (h : (files schema values).placeOf? "records.json" = some place) :
    (files schema values).isDirectory place = false := by
  obtain rfl := Option.some.inj h
  rfl

end

def request : ComputeRequest :=
  { schema := "credits.json", values := "records.json", activity := "1", client := some 42
    year := none, range := .all, overwriteCarry := false, writeBack := true, format := .table
    output := none, noColour := false }

def surroundings : Surroundings :=
  { environment := fun _ => none, painting := false, defaultConfig := "settings.toml" }

def catalog : Catalog :=
  Catalog.empty.insert (Credits.activity [Credits.creditRule])

def selected : Record :=
  Credits.record "300" .empty .empty

def other : Record :=
  { client := 43, activity := 1, version := 3 }

/-- The files that hold the catalog and both records. -/
def tree : FileTree :=
  files catalog.document.pretty (Json.ofList Record.toJson [other, selected]).pretty

end Credits

/-- Of the records of two clients one is computed. -/
theorem compute_write_back_credits :
    (∀ records, (loadRecords Credits.request.values).resultOn Credits.tree = .ok records →
      (records.map (·.key)).Nodup ∧ ∀ record ∈ records, record.version < twoPow 64 - 1) ∧
    (∀ path ∈ Credits.request.output, ∀ place, Credits.tree.placeOf? path = some place →
      Credits.tree.placeOf? Credits.request.values ≠ some place) ∧
    ((Invocation.script Credits.surroundings ⟨none, false, .compute Credits.request⟩).runOn
      Credits.tree).1.failure = none ∧
    (loadRecords Credits.request.values).resultOn
      ((Invocation.script Credits.surroundings ⟨none, false, .compute Credits.request⟩).runOn
        Credits.tree).2 =
      .ok [Credits.selected.recomputed
        (.ofActivity {} (Credits.activity [Credits.creditRule])) .all, Credits.other] := by
  have hstorable : ∀ record ∈ [Credits.other, Credits.selected], record.Storable := by decide
  have hstorable' : ∀ a ∈ Credits.catalog.toList, a.Storable := by decide +kernel
  obtain ⟨catalog, hcatalog, hactivities⟩ := Catalog.exists_ofJsonText hstorable'
  replace hactivities : catalog.activities = [Credits.activity [Credits.creditRule]] := hactivities
  have hparse := parse?_ofList_records hstorable
  unfold Credits.tree
  -- from here on it does not matter how the texts are written
  generalize Credits.catalog.document.pretty = schema at hcatalog ⊢
  generalize (Json.ofList Record.toJson [Credits.other, Credits.selected]).pretty = values
    at hparse ⊢
  have hloaded : (loadRecords Credits.request.values).resultOn (Credits.files schema values) =
      .ok [Credits.other, Credits.selected] :=
    resultOn_loadRecords_iff.2 ⟨values, Credits.read_values schema values, hparse⟩
  have hkeys : ∀ records, (loadRecords Credits.request.values).resultOn
      (Credits.files schema values) = .ok records →
      (records.map (·.key)).Nodup ∧ ∀ record ∈ records, record.version < twoPow 64 - 1 := by
    intro records hrecords
    obtain rfl := Except.ok.inj (hloaded.symm.trans hrecords)
    decide
  have houtput : ∀ path ∈ Credits.request.output, ∀ place,
      (Credits.files schema values).placeOf? path = some place →
        (Credits.files schema values).placeOf? Credits.request.values ≠ some place := by
    intro path hpath
    cases hpath
  have hfind : catalog.find? Credits.request.activity =
      some (Credits.activity [Credits.creditRule]) := by
    rw [Catalog.find?, show Catalog.idOf? Credits.request.activity = some 1 by decide,
      Option.bind_some, Catalog.get?, hactivities]
    rfl
  have hsize : catalog.size ≠ 0 := by
    rw [Catalog.size, hactivities]
    decide
  have hsettings : (loadSettings Credits.surroundings none).resultOn
      (Credits.files schema values) = .ok {} :=
    resultOn_loadSettings_of_missing (Credits.read_settings schema values)
  have hschema : (loadCatalog Credits.request.schema).resultOn (Credits.files schema values) =
      .ok catalog :=
    resultOn_loadCatalog_of_json (Credits.read_schema schema values) (by decide) hcatalog hsize
  have hprepared : Prepared Credits.surroundings none Credits.request
      (Credits.files schema values) {} (Credits.activity [Credits.creditRule])
      [Credits.other, Credits.selected] := by
    refine ⟨hsettings, fun last hlast => ?_, ⟨catalog, hschema, hfind⟩, hloaded, by decide⟩
    cases hlast
  obtain ⟨hwritten, -, -, -, hsucceeds⟩ := compute_write_back Credits.surroundings none false
    Credits.request (Credits.files schema values) hkeys houtput
  have hsuccess := hsucceeds _ _ _ hprepared
    (fun _ => Credits.isDirectory_values schema values) rfl
  obtain ⟨settings, activity, records, hprepared', sorted, hperm, hascending, hleft⟩ :=
    hwritten hsuccess rfl
  refine ⟨hkeys, houtput, hsuccess, ?_⟩
  obtain rfl := Except.ok.inj (hprepared.hasSettings.symm.trans hprepared'.hasSettings)
  obtain rfl := Except.ok.inj (hprepared.hasRecords.symm.trans hprepared'.hasRecords)
  obtain rfl := Option.some.inj (hfind.symm.trans (hprepared'.find?_eq hschema))
  have hsorted : sorted = [Credits.selected, Credits.other] :=
    List.Perm.eq_of_pairwise
      (fun a _ _ _ hab hba => absurd (hab.trans hba) (RecordKey.not_before_self a.key))
      hascending (by decide) (hperm.trans (.swap _ _ _))
  rw [hleft, hsorted, List.map_cons, List.map_singleton, if_pos (by decide), if_neg (by decide)]
  rfl

end PeriodSheet.CommandLine
