import Mathlib.Data.List.Nodup
import PeriodSheet.CommandLine.Program
import PeriodSheet.Proofs.StoreRecompute

/-!
# What a store holds

The whole list of a store, where `get?` tells of one key only.  A store that is seeded with records
of distinct keys holds exactly these, in ascending order (`toList_ofList_perm`).  To put a record
where its key has one replaces that one in its place (`toList_put`), so that to compute some of the
keys, one after another, replaces their records and leaves all others (`exists_recomputeAll`).
-/

namespace PeriodSheet

theorem RecordKey.not_before_self (key : RecordKey) : ¬ key.Before key := by
  have hyear : ¬ YearBefore key.fiscalYear key.fiscalYear := by
    cases key.fiscalYear with
    | none => exact id
    | some year => exact Int.lt_irrefl year
  rintro (hclient | ⟨-, hactivity | ⟨-, h⟩⟩)
  · exact Int.lt_irrefl _ hclient
  · exact Int.lt_irrefl _ hactivity
  · exact hyear h

/-- What becomes of a record that is computed and saved once. -/
def Record.recomputed (plan : Plan) (range : PeriodRange) (record : Record) : Record :=
  { (Computation.ofRecord plan record range).record with version := record.version + 1 }

theorem Record.key_recomputed (plan : Plan) (range : PeriodRange) (record : Record) :
    (record.recomputed plan range).key = record.key :=
  Computation.key_ofRecord plan record range

namespace RecordStore

/-! ### Seeding -/

/-- A record of a new key is added to the others. -/
theorem putRecord_perm {record : Record} {records : List Record}
    (h : ∀ r ∈ records, r.key ≠ record.key) :
    (putRecord record records).Perm (record :: records) := by
  induction records with
  | nil => exact .refl _
  | cons other rest ih =>
    obtain ⟨hother, hrest⟩ := List.forall_mem_cons.1 h
    unfold putRecord
    split
    · exact .refl _
    · rw [if_neg fun heq => hother heq.symm]
      exact ((ih hrest).cons other).trans (.swap record other rest)

theorem foldl_put_perm {records : List Record} {store : RecordStore}
    (h : ((records ++ store.toList).map (·.key)).Nodup) :
    (records.foldl put store).toList.Perm (records ++ store.toList) := by
  induction records generalizing store with
  | nil => exact .refl _
  | cons record rest ih =>
    rw [List.cons_append, List.map_cons, List.nodup_cons] at h
    obtain ⟨hfree, hrest⟩ := h
    have hput : (store.put record).toList.Perm (record :: store.toList) :=
      putRecord_perm fun r hr heq =>
        hfree (List.mem_map.2 ⟨r, List.mem_append_right rest hr, heq⟩)
    have hperm : (rest ++ (store.put record).toList).Perm (record :: (rest ++ store.toList)) :=
      (hput.append_left rest).trans List.perm_middle
    have hnodup : ((rest ++ (store.put record).toList).map (·.key)).Nodup := by
      rw [(hperm.map (·.key)).nodup_iff, List.map_cons]
      exact List.nodup_cons.2 ⟨hfree, hrest⟩
    exact (ih hnodup).trans hperm

/-- A store that is seeded with records of distinct keys holds these. -/
theorem toList_ofList_perm {records : List Record} (h : (records.map (·.key)).Nodup) :
    (ofList records).toList.Perm records := by
  have hseeded : records ++ empty.toList = records := List.append_nil records
  have hperm : (ofList records).toList.Perm (records ++ empty.toList) :=
    foldl_put_perm (by rwa [hseeded])
  rwa [hseeded] at hperm

/-! ### Replacing -/

theorem nodup_keys (store : RecordStore) : (store.toList.map (·.key)).Nodup := by
  refine List.Pairwise.map _ (fun a b hbefore heq => ?_) store.ascending
  rw [heq] at hbefore
  exact RecordKey.not_before_self b.key hbefore

theorem get?_of_mem {store : RecordStore} {record : Record} (h : record ∈ store.toList) :
    store.get? record.key = some record := by
  cases hget : store.get? record.key with
  | none =>
    have hnone := List.find?_eq_none.1 hget record h
    exact absurd (beq_self_eq_true record.key) hnone
  | some found =>
    have hinj := List.inj_on_of_nodup_map store.nodup_keys
    exact congrArg some (hinj (mem_toList_of_get? hget) h (key_of_get? hget))

theorem putRecord_eq_map {record : Record} {records : List Record}
    (hascending : records.Pairwise fun a b => a.key.Before b.key)
    (h : ∃ r ∈ records, r.key = record.key) :
    putRecord record records = records.map fun r => if r.key = record.key then record else r := by
  induction records with
  | nil => simp at h
  | cons other rest ih =>
    obtain ⟨hhead, hrest⟩ := List.pairwise_cons.1 hascending
    rw [putRecord, List.map_cons]
    by_cases heq : other.key = record.key
    · -- the keys behind are later ones, so that no other record is replaced
      have hlater : rest.map (fun r => if r.key = record.key then record else r) = rest := by
        refine (List.map_congr_left fun r hr => if_neg fun hkey => ?_).trans (List.map_id rest)
        have hbefore := hhead r hr
        rw [heq, hkey] at hbefore
        exact RecordKey.not_before_self _ hbefore
      rw [if_neg (heq ▸ RecordKey.not_before_self _), if_pos heq.symm, if_pos heq, hlater]
    · obtain ⟨r, hr, hkey⟩ := h
      obtain rfl | hr := List.mem_cons.1 hr
      · exact absurd hkey heq
      have hbefore : other.key.Before record.key := hkey ▸ hhead r hr
      rw [if_neg fun h => RecordKey.not_before_self _ (hbefore.trans h), if_neg fun h => heq h.symm,
        if_neg heq, ih hrest ⟨r, hr, hkey⟩]

/-- A record is put in place of the one with its key. -/
theorem toList_put {store : RecordStore} {record : Record}
    (h : ∃ r ∈ store.toList, r.key = record.key) :
    (store.put record).toList =
      store.toList.map fun r => if r.key = record.key then record else r :=
  putRecord_eq_map store.ascending h

/-! ### Computing -/

/-- Computing a key whose version is not the last one replaces its record. -/
theorem exists_recompute {store : RecordStore} (plan : Plan) {key : RecordKey}
    (range : PeriodRange) {record : Record} (hget : store.get? key = some record)
    (hversion : record.version < twoPow 64 - 1) :
    ∃ computation, store.recompute plan key range =
      .ok (store.put (record.recomputed plan range), computation) := by
  have hkey : (Computation.ofRecord plan record range).record.key = key :=
    (Computation.key_ofRecord plan record range).trans (key_of_get? hget)
  have hnext : nextVersion record.version = record.version + 1 :=
    Nat.mod_eq_of_lt (by omega)
  unfold recompute load
  simp only [hget, save, hkey, versionOf_of_get? hget, if_true, hnext]
  exact ⟨_, rfl⟩

end RecordStore

open RecordStore CommandLine

/-- Computing some keys, one after another, replaces the records of these keys. -/
theorem CommandLine.exists_recomputeAll (plan : Plan) (range : PeriodRange) {keys : List RecordKey}
    {store : RecordStore} (hkeys : keys.Nodup)
    (hget : ∀ key ∈ keys, ∃ record, store.get? key = some record ∧
      record.version < twoPow 64 - 1) :
    ∃ left computations, recomputeAll plan range store keys = .ok (left, computations) ∧
      left.toList = store.toList.map fun record =>
        if record.key ∈ keys then record.recomputed plan range else record := by
  induction keys generalizing store with
  | nil => exact ⟨store, [], rfl, by simp⟩
  | cons key rest ih =>
    obtain ⟨hfree, hrest⟩ := List.nodup_cons.1 hkeys
    obtain ⟨⟨record, hrecord, hversion⟩, hothers⟩ := List.forall_mem_cons.1 hget
    obtain ⟨computation, hcomputation⟩ := exists_recompute plan range hrecord hversion
    have hkey : (record.recomputed plan range).key = key :=
      (record.key_recomputed plan range).trans (key_of_get? hrecord)
    -- the keys that are left still have the records that they had
    have hget' : ∀ other ∈ rest, ∃ r, (store.put (record.recomputed plan range)).get? other =
        some r ∧ r.version < twoPow 64 - 1 := by
      intro other hother
      have hne : key ≠ other := fun heq => hfree (heq ▸ hother)
      rw [get?_put, hkey, if_neg hne]
      exact hothers other hother
    obtain ⟨left, computations, hleft, hlist⟩ := ih hrest hget'
    refine ⟨left, computation :: computations, ?_, ?_⟩
    · rw [recomputeAll, hcomputation]
      simp only [hleft]
      rfl
    · rw [hlist, toList_put ⟨record, mem_toList_of_get? hrecord, (key_of_get? hrecord).trans
        hkey.symm⟩, List.map_map]
      refine List.map_congr_left fun r hr => ?_
      rw [Function.comp_apply, hkey]
      by_cases heq : r.key = key
      · obtain rfl : record = r := Option.some.inj (hrecord.symm.trans (heq ▸ get?_of_mem hr))
        have hfree' : (record.recomputed plan range).key ∉ rest := hkey.symm ▸ hfree
        rw [if_pos heq, if_neg hfree', if_pos (heq ▸ List.mem_cons_self)]
      · have hmem : r.key ∈ key :: rest ↔ r.key ∈ rest := by simp [heq]
        rw [if_neg heq]
        simp only [hmem]

end PeriodSheet
