import PeriodSheet.Proofs.Frame
import PeriodSheet.Proofs.StoreHistory

/-!
# Recomputing a stored record

Recomputing loads a record, computes it, and saves the result.  Between the two calls of the store
other clients may be served (`recomputeAmid`), so that the save may meet another store than the one
that was read from.  Computing keeps the key and the version of a record, and so the save names the
key that was asked for, at the version that was read: it goes through exactly where nobody saved
that key in between, and then it leaves the computed record there (`recompute_all_or_nothing`).
-/

namespace PeriodSheet

namespace Computation

theorem key_ofRecord (plan : Plan) (record : Record) (range : PeriodRange) :
    (ofRecord plan record range).record.key = record.key := by
  rw [identity_ofRecord]
  rfl

end Computation

namespace RecordStore

variable {Client : Type}

/-- Recomputes a record while other clients are served between the loading and the saving: the store
that is left, and the result. -/
def recomputeAmid (store : RecordStore) (calls : List (Client × StoreCall)) (plan : Plan)
    (key : RecordKey) (range : PeriodRange) : RecordStore × Except StoreError Computation :=
  match store.load key with
  | .error error => (store.after calls, .error error)
  | .ok snapshot =>
    let computation := Computation.ofRecord plan snapshot range
    match (store.after calls).save computation.record snapshot.version with
    | .error error => (store.after calls, .error error)
    | .ok (saved, version) => (saved, .ok { computation with record.version := version })

/-- Where nobody else is served, this is recomputing. -/
theorem recompute_eq (store : RecordStore) (plan : Plan) (key : RecordKey) (range : PeriodRange) :
    store.recompute plan key range =
      match store.recomputeAmid ([] : List (Client × StoreCall)) plan key range with
      | (_, .error error) => .error error
      | (left, .ok computation) => .ok (left, computation) := by
  unfold recompute recomputeAmid
  cases store.load key with
  | error error => rfl
  | ok snapshot =>
    dsimp only [after]
    cases store.save (Computation.ofRecord plan snapshot range).record snapshot.version <;> rfl

/-- What may become of recomputing a record. -/
inductive Recomputes (store : RecordStore) (calls : List (Client × StoreCall)) (plan : Plan)
    (key : RecordKey) (range : PeriodRange) :
    RecordStore × Except StoreError Computation → Prop where
  | notFound (hget : store.get? key = none) :
      Recomputes store calls plan key range (store.after calls, .error (.notFound key))
  | stale {snapshot : Record} (hget : store.get? key = some snapshot)
      (hversion : (store.after calls).versionOf key ≠ snapshot.version) :
      Recomputes store calls plan key range (store.after calls,
        .error (.staleWrite key snapshot.version ((store.after calls).versionOf key)))
  | saved {snapshot : Record} (hget : store.get? key = some snapshot)
      (hversion : (store.after calls).versionOf key = snapshot.version)
      {computation : Computation}
      (hcomputation : computation = { Computation.ofRecord plan snapshot range with
        record.version := nextVersion snapshot.version }) :
      Recomputes store calls plan key range
        ((store.after calls).put computation.record, .ok computation)

theorem recomputes (store : RecordStore) (calls : List (Client × StoreCall)) (plan : Plan)
    (key : RecordKey) (range : PeriodRange) :
    store.Recomputes calls plan key range (store.recomputeAmid calls plan key range) := by
  unfold recomputeAmid load
  cases hget : store.get? key with
  | none => exact .notFound hget
  | some snapshot =>
    have hkey : (Computation.ofRecord plan snapshot range).record.key = key :=
      (Computation.key_ofRecord plan snapshot range).trans (key_of_get? hget)
    simp only [save, hkey]
    by_cases hversion : (store.after calls).versionOf key = snapshot.version
    · simp only [hversion, if_true]
      exact .saved hget hversion rfl
    · simp only [hversion, if_false]
      exact .stale hget hversion

/-- **Recomputing is all or nothing.**  Whatever other clients call between the loading and the
saving, while there is room:

* a result means that nobody saved the key in between, and that the store now holds the computed
  record under that key, one version after the snapshot, and all else as the others left it;
* an error means that the store is as the others left it;
* there is a result exactly where there was a record to load that nobody saved in between.

Where nobody else is served, this is what `recompute` answers. -/
theorem recompute_all_or_nothing (store : RecordStore) (calls : List (Client × StoreCall))
    (hroom : ∀ served ∈ store.history calls, served.met.HasRoom)
    (hroom' : (store.after calls).HasRoom) (plan : Plan) (key : RecordKey) (range : PeriodRange) :
    let met := store.after calls
    let left := (store.recomputeAmid calls plan key range).1
    let result := (store.recomputeAmid calls plan key range).2
    (∀ computation, result = .ok computation → ∃ snapshot, store.load key = .ok snapshot ∧
      savedVersions key (store.history calls) = [] ∧
      computation = { Computation.ofRecord plan snapshot range with
        record.version := snapshot.version + 1 } ∧
      computation.record.key = key ∧
      ∀ other, left.get? other =
        if other = key then some computation.record else met.get? other) ∧
    (∀ error, result = .error error → left = met) ∧
    ((∃ computation, result = .ok computation) ↔
      (∃ snapshot, store.load key = .ok snapshot) ∧
        savedVersions key (store.history calls) = []) ∧
    store.recompute plan key range =
      match store.recomputeAmid ([] : List (Client × StoreCall)) plan key range with
      | (_, .error error) => .error error
      | (left, .ok computation) => .ok (left, computation) := by
  intro met left result
  have hsaves := store.recomputes calls plan key range
  have hunsaved := savedVersions_eq_nil_iff hroom key
  suffices h : _ ∧ _ ∧ _ from ⟨h.1, h.2.1, h.2.2, recompute_eq store plan key range⟩
  simp only [left, result]
  generalize store.recomputeAmid calls plan key range = outcome at hsaves ⊢
  cases hsaves with
  | notFound hget =>
    simp only [reduceCtorEq, IsEmpty.forall_iff, implies_true, exists_false, false_iff, true_and,
      met]
    rintro ⟨⟨snapshot, hload⟩, -⟩
    rw [load_eq_ok_iff, hget] at hload
    cases hload
  | @stale snapshot hget hversion =>
    simp only [reduceCtorEq, IsEmpty.forall_iff, implies_true, exists_false, false_iff, true_and,
      met]
    rintro ⟨-, hnone⟩
    exact hversion ((hunsaved.1 hnone).trans (versionOf_of_get? hget))
  | @saved snapshot hget hversion computation hcomputation =>
    have hload : store.load key = .ok snapshot := load_eq_ok_iff.2 hget
    have hnone : savedVersions key (store.history calls) = [] :=
      hunsaved.2 (hversion.trans (versionOf_of_get? hget).symm)
    refine ⟨fun _ h => ?_, nofun, iff_of_true ⟨_, rfl⟩ ⟨⟨_, hload⟩, hnone⟩⟩
    obtain rfl := Except.ok.inj h
    -- the save names the version that it meets, below which there is room
    rw [← hversion, hroom'.nextVersion_versionOf, hversion] at hcomputation
    have hkey : computation.record.key = key := by
      rw [hcomputation]
      exact (Computation.key_ofRecord plan snapshot range).trans (key_of_get? hget)
    refine ⟨snapshot, hload, hnone, hcomputation, hkey, fun other => ?_⟩
    rw [get?_put, hkey]
    exact if_congr eq_comm rfl rfl

/-- Recomputing credits while another client reads the same record and saves its own. -/
theorem recompute_all_or_nothing_credits :
    let seed : Record := { Credits.record "300" .empty .empty with version := 3 }
    let other : Record := { client := 43, activity := 1, fiscalYear := some 2025 }
    let store := ofList [seed]
    let calls : List (Nat × StoreCall) := [(2, .load seed.key), (2, .save other 0)]
    let plan := Plan.ofActivity {} (Credits.activity [Credits.creditRule])
    let recomputed := store.recomputeAmid calls plan seed.key .all
    (∀ served ∈ store.history calls, served.met.HasRoom) ∧ (store.after calls).HasRoom ∧
      ∃ computation, recomputed.2 = .ok computation ∧ computation.record.version = 4 ∧
        recomputed.1.get? seed.key = some computation.record ∧
        recomputed.1.get? other.key = some { other with version := 1 } := by
  intro seed other store calls plan recomputed
  have hroom : ∀ served ∈ store.history calls, served.met.HasRoom := by decide +kernel
  have hroom' : (store.after calls).HasRoom := by decide +kernel
  have hload : store.load seed.key = .ok seed := rfl
  obtain ⟨hresult, -, hiff, -⟩ :=
    recompute_all_or_nothing store calls hroom hroom' plan seed.key .all
  obtain ⟨computation, hok⟩ := hiff.2 ⟨⟨seed, hload⟩, by decide +kernel⟩
  obtain ⟨snapshot, hsnapshot, -, hcomputation, -, hleft⟩ := hresult computation hok
  obtain rfl : seed = snapshot := Except.ok.inj (hload.symm.trans hsnapshot)
  refine ⟨hroom, hroom', computation, hok, by rw [hcomputation], ?_, ?_⟩
  · rw [hleft, if_pos rfl]
  · have hother : other.key ≠ seed.key := by decide
    rw [hleft, if_neg hother]
    decide +kernel

end RecordStore

end PeriodSheet
