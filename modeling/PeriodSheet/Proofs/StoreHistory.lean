import PeriodSheet.RecordStore

/-!
# Histories of a store

What clients can rely on who share a store.  A store serves one call at a time, so whatever the
clients do, and however their calls mix, what happens is a list of calls: each meets the store that
the one before left.

* **`Serves`** lists what may become of a call: the answer, and the store that is left.
* **`history`** is what happens when a list of calls is served.  The versions that a key is saved at
  count up from the one that it had, without a gap (`exists_savedVersions_eq`).
* So no version comes twice, and a save that names the version of a snapshot meets the very record
  that was read (`no_lost_update`).
-/

namespace PeriodSheet

/-! ### Records by key -/

namespace RecordStore

theorem find?_putRecord (record : Record) (key : RecordKey) (records : List Record) :
    (putRecord record records).find? (·.key == key) =
      if record.key = key then some record else records.find? (·.key == key) := by
  induction records with
  | nil => by_cases h : record.key = key <;> simp [putRecord, h]
  | cons other rest ih =>
    unfold putRecord
    split
    · by_cases h : record.key = key <;> simp [h]
    · split
      · -- the record that is replaced has the same key, so that no other key misses it
        rename_i heq
        by_cases h : record.key = key <;> simp [h, ← heq]
      · rename_i hne
        by_cases hother : other.key = key
        · have hkey : record.key ≠ key := fun h => hne (h.trans hother.symm)
          simp [hother, hkey]
        · simpa [hother] using ih

/-- After a record was put into a store, its key has it; the other keys are as before. -/
@[simp]
theorem get?_put (store : RecordStore) (record : Record) (key : RecordKey) :
    (store.put record).get? key = if record.key = key then some record else store.get? key :=
  find?_putRecord record key store.records

theorem key_of_get? {store : RecordStore} {key : RecordKey} {record : Record}
    (h : store.get? key = some record) : record.key = key :=
  eq_of_beq (List.find?_some (p := fun r : Record => r.key == key) h)

theorem mem_toList_of_get? {store : RecordStore} {key : RecordKey} {record : Record}
    (h : store.get? key = some record) : record ∈ store.toList :=
  List.mem_of_find?_eq_some h

theorem mem_toList_put {store : RecordStore} {record r : Record}
    (h : r ∈ (store.put record).toList) : r = record ∨ r ∈ store.toList :=
  mem_putRecord h

/-- A store that is seeded with records has the last one of each key. -/
theorem get?_ofList (records : List Record) (key : RecordKey) :
    (ofList records).get? key = records.reverse.find? (·.key == key) := by
  have hseeded : ∀ store : RecordStore, (records.foldl put store).get? key =
      (records.reverse.find? (·.key == key)).or (store.get? key) := by
    induction records with
    | nil => exact fun _ => rfl
    | cons record rest ih =>
      intro store
      rw [List.foldl_cons, ih, get?_put, List.reverse_cons, List.find?_append, Option.or_assoc]
      congr 1
      by_cases h : record.key = key <;> simp [h]
  exact (hseeded empty).trans Option.or_none

theorem versionOf_eq (store : RecordStore) (key : RecordKey) :
    store.versionOf key = ((store.get? key).map (·.version)).getD 0 := by
  unfold versionOf
  cases store.get? key <;> rfl

theorem versionOf_of_get? {store : RecordStore} {key : RecordKey} {record : Record}
    (h : store.get? key = some record) : store.versionOf key = record.version := by
  rw [versionOf_eq, h]
  rfl

theorem load_eq_ok_iff {store : RecordStore} {key : RecordKey} {record : Record} :
    store.load key = .ok record ↔ store.get? key = some record := by
  unfold load
  cases store.get? key <;> simp

theorem versionOf_put (store : RecordStore) (record : Record) (key : RecordKey) :
    (store.put record).versionOf key =
      if record.key = key then record.version else store.versionOf key := by
  rw [versionOf_eq, get?_put, versionOf_eq]
  split <;> rfl

/-- A store has room where each of its records can be saved once more before versions run out. -/
def HasRoom (store : RecordStore) : Prop :=
  ∀ record ∈ store.toList, record.version < twoPow 64 - 1

instance (store : RecordStore) : Decidable store.HasRoom :=
  inferInstanceAs (Decidable (∀ record ∈ store.toList, record.version < twoPow 64 - 1))

/-- In a store that has room, the version after that of a key is one more. -/
theorem HasRoom.nextVersion_versionOf {store : RecordStore} (h : store.HasRoom)
    (key : RecordKey) : nextVersion (store.versionOf key) = store.versionOf key + 1 := by
  have hbelow : store.versionOf key < twoPow 64 - 1 := by
    unfold versionOf
    cases hget : store.get? key with
    | none => decide
    | some record => exact h record (mem_toList_of_get? hget)
  exact Nat.mod_eq_of_lt (by omega)

end RecordStore

/-! ### Calls -/

/-- A call that a client makes on a store. -/
inductive StoreCall where
  | load (key : RecordKey)
  | enroll (key : RecordKey) (activity : Activity)
  /-- Saves a record that was read at a version. -/
  | save (record : Record) (expected : Nat)

def StoreCall.key : StoreCall → RecordKey
  | .load key => key
  | .enroll key _ => key
  | .save record _ => record.key

/-- What a client is answered. -/
inductive StoreAnswer where
  | loaded (record : Record)
  | enrolled (record : Record)
  | saved (version : Nat)
  | refused (error : StoreError)
deriving DecidableEq

/-- The version that a call with this answer saved a key at, if it did. -/
def StoreCall.savedAt? : StoreCall → StoreAnswer → RecordKey → Option Nat
  | .save record _, .saved version, key => if record.key = key then some version else none
  | _, _, _ => none

namespace RecordStore

/-- Serves a call: the answer, and the store that is left. -/
def serve (store : RecordStore) : StoreCall → StoreAnswer × RecordStore
  | .load key =>
    match store.load key with
    | .ok record => (.loaded record, store)
    | .error error => (.refused error, store)
  | .enroll key activity =>
    match store.enroll key activity with
    | .ok (left, record) => (.enrolled record, left)
    | .error error => (.refused error, store)
  | .save record expected =>
    match store.save record expected with
    | .ok (left, version) => (.saved version, left)
    | .error error => (.refused error, store)

/-- What may become of a call. -/
inductive Serves (store : RecordStore) : StoreCall → StoreAnswer → RecordStore → Prop where
  | loaded {key : RecordKey} {record : Record} (hget : store.get? key = some record) :
      Serves store (.load key) (.loaded record) store
  | notFound {key : RecordKey} (hget : store.get? key = none) :
      Serves store (.load key) (.refused (.notFound key)) store
  | enrolled {key : RecordKey} {activity : Activity} (hget : store.get? key = none) :
      Serves store (.enroll key activity) (.enrolled (.enroll key activity))
        (store.put (.enroll key activity))
  | alreadyEnrolled {key : RecordKey} {activity : Activity} {record : Record}
      (hget : store.get? key = some record) :
      Serves store (.enroll key activity) (.refused (.alreadyEnrolled key)) store
  | saved {record : Record} {expected : Nat} (hversion : store.versionOf record.key = expected) :
      Serves store (.save record expected) (.saved (nextVersion expected))
        (store.put { record with version := nextVersion expected })
  | stale {record : Record} {expected : Nat} (hversion : store.versionOf record.key ≠ expected) :
      Serves store (.save record expected)
        (.refused (.staleWrite record.key expected (store.versionOf record.key))) store

theorem serves (store : RecordStore) (call : StoreCall) :
    store.Serves call (store.serve call).1 (store.serve call).2 := by
  cases call with
  | load key =>
    cases hget : store.get? key with
    | none =>
      simp only [serve, load, hget]
      exact .notFound hget
    | some record =>
      simp only [serve, load, hget]
      exact .loaded hget
  | enroll key activity =>
    cases hget : store.get? key with
    | none =>
      simp only [serve, enroll, hget]
      exact .enrolled hget
    | some record =>
      simp only [serve, enroll, hget]
      exact .alreadyEnrolled hget
  | save record expected =>
    by_cases hversion : store.versionOf record.key = expected
    · simp only [serve, save, hversion, if_true]
      exact .saved hversion
    · simp only [serve, save, hversion, if_false]
      exact .stale hversion

namespace Serves

variable {store left : RecordStore} {call : StoreCall} {answer : StoreAnswer}

/-- What is loaded is the record of the key, and loading it changes nothing. -/
theorem of_loaded {key : RecordKey} {record : Record}
    (h : store.Serves (.load key) (.loaded record) left) :
    left = store ∧ store.get? key = some record := by
  cases h with
  | loaded hget => exact ⟨rfl, hget⟩

/-- A call that is refused leaves the store as it is. -/
theorem left_of_refused {error : StoreError} (h : store.Serves call (.refused error) left) :
    left = store := by
  cases h <;> rfl

theorem get?_of_ne (h : store.Serves call answer left) {key : RecordKey} (hne : key ≠ call.key) :
    left.get? key = store.get? key := by
  cases h with
  | enrolled hget => exact (get?_put store _ key).trans (if_neg fun h => hne h.symm)
  | saved hversion => exact (get?_put store _ key).trans (if_neg fun h => hne h.symm)
  | _ => rfl

/-- After a save its key has the saved record, at the version that was answered. -/
theorem get?_of_saved {record : Record} {expected version : Nat}
    (h : store.Serves (.save record expected) (.saved version) left) :
    left.get? record.key = some { record with version } := by
  cases h with
  | saved hversion => exact (get?_put store _ record.key).trans (if_pos rfl)

/-- A save is accepted where it names the version of its key. -/
theorem saved_iff {record : Record} {expected : Nat}
    (h : store.Serves (.save record expected) answer left) :
    (∃ version, answer = .saved version) ↔ expected = store.versionOf record.key := by
  cases h with
  | saved hversion => exact iff_of_true ⟨_, rfl⟩ hversion.symm
  | stale hversion => exact iff_of_false (fun ⟨_, h⟩ => by cases h) fun h => hversion h.symm

/-- A call either saves a key, which counts its version up, or leaves its version alone. -/
theorem savedAt?_cases (h : store.Serves call answer left) (hroom : store.HasRoom)
    (key : RecordKey) :
    call.savedAt? answer key = none ∧ left.versionOf key = store.versionOf key ∨
      call.savedAt? answer key = some (store.versionOf key + 1) ∧
        left.versionOf key = store.versionOf key + 1 := by
  cases h with
  | @enrolled key' activity hget =>
    -- a key without a record is at version zero, and so is a new record
    refine .inl ⟨rfl, ?_⟩
    rw [versionOf_put]
    split
    · rename_i hkey
      obtain rfl : key' = key := hkey
      rw [versionOf_eq, hget]
      rfl
    · rfl
  | @saved record _ hversion =>
    subst hversion
    rw [versionOf_put, hroom.nextVersion_versionOf]
    by_cases hkey : record.key = key
    · subst hkey
      exact .inr ⟨if_pos rfl, if_pos rfl⟩
    · exact .inl ⟨if_neg hkey, if_neg hkey⟩
  | _ => exact .inl ⟨rfl, rfl⟩

end Serves

end RecordStore

/-! ### Histories -/

/-- A call that was served. -/
structure Served (Client : Type) where
  client : Client
  /-- The store that the call met. -/
  met : RecordStore
  call : StoreCall

namespace Served

variable {Client : Type}

def answer (served : Served Client) : StoreAnswer :=
  (served.met.serve served.call).1

def left (served : Served Client) : RecordStore :=
  (served.met.serve served.call).2

/-- The version that the call saved a key at, if it did. -/
def savedAt? (key : RecordKey) (served : Served Client) : Option Nat :=
  served.call.savedAt? served.answer key

theorem serves (served : Served Client) :
    served.met.Serves served.call served.answer served.left :=
  served.met.serves served.call

end Served

namespace RecordStore

variable {Client : Type}

/-- What happens when calls are served in an order. -/
def history (store : RecordStore) : List (Client × StoreCall) → List (Served Client)
  | [] => []
  | (client, call) :: rest => ⟨client, store, call⟩ :: (store.serve call).2.history rest

/-- The store that some calls leave. -/
def after (store : RecordStore) : List (Client × StoreCall) → RecordStore
  | [] => store
  | (_, call) :: rest => (store.serve call).2.after rest

/-- The versions that a key is saved at, one after the other. -/
def savedVersions (key : RecordKey) (history : List (Served Client)) : List Nat :=
  history.filterMap (·.savedAt? key)

theorem savedVersions_cons (key : RecordKey) (served : Served Client)
    (rest : List (Served Client)) :
    savedVersions key (served :: rest) =
      (served.savedAt? key).toList ++ savedVersions key rest := by
  cases h : served.savedAt? key with
  | none => exact List.filterMap_cons_none h
  | some version => exact List.filterMap_cons_some h

/-- A call meets what the calls before it left, and what it leaves is where those after it begin. -/
theorem history_eq_append_cons {store : RecordStore} {calls : List (Client × StoreCall)}
    {earlier later : List (Served Client)} {served : Served Client}
    (h : store.history calls = earlier ++ served :: later) :
    ∃ before rest, store.history before = earlier ∧ store.after before = served.met ∧
      served.left.history rest = later := by
  induction earlier generalizing store calls with
  | nil =>
    cases calls with
    | nil => cases h
    | cons call calls =>
      obtain ⟨rfl, hlater⟩ := List.cons.inj h
      exact ⟨[], calls, rfl, rfl, hlater⟩
  | cons first earlier ih =>
    cases calls with
    | nil => cases h
    | cons call calls =>
      obtain ⟨hfirst, hrest⟩ := List.cons.inj h
      obtain ⟨before, rest, hbefore, hmet, hlater⟩ := ih hrest
      exact ⟨call :: before, rest, List.cons_eq_cons.2 ⟨hfirst, hbefore⟩, hmet, hlater⟩

/-- While there is room, the versions that a key is saved at count up from the one that it had, and
the last of them is the one that it is left with. -/
theorem exists_savedVersions_eq {store : RecordStore} {calls : List (Client × StoreCall)}
    (hroom : ∀ served ∈ store.history calls, served.met.HasRoom) (key : RecordKey) :
    ∃ count, savedVersions key (store.history calls) =
        List.range' (store.versionOf key + 1) count ∧
      (store.after calls).versionOf key = store.versionOf key + count := by
  induction calls generalizing store with
  | nil => exact ⟨0, rfl, rfl⟩
  | cons request rest ih =>
    obtain ⟨client, call⟩ := request
    obtain ⟨hhead, hrest⟩ := List.forall_mem_cons.1 hroom
    obtain ⟨count, hsaved, hversion⟩ := ih hrest
    have hcases := (store.serves call).savedAt?_cases hhead key
    rw [history, savedVersions_cons, hsaved, Served.savedAt?, after, hversion]
    rcases hcases with ⟨hnone, hkept⟩ | ⟨hsome, hcounted⟩
    · exact ⟨count, by rw [Served.answer, hnone, hkept]; rfl, by rw [hkept]⟩
    · refine ⟨count + 1, ?_, by omega⟩
      rw [Served.answer, hsome, hcounted, List.range'_succ]
      rfl

/-- Nobody saved a key where it is left with the version that it had. -/
theorem savedVersions_eq_nil_iff {store : RecordStore} {calls : List (Client × StoreCall)}
    (hroom : ∀ served ∈ store.history calls, served.met.HasRoom) (key : RecordKey) :
    savedVersions key (store.history calls) = [] ↔
      (store.after calls).versionOf key = store.versionOf key := by
  obtain ⟨count, hsaved, hversion⟩ := exists_savedVersions_eq hroom key
  rw [hsaved, hversion, List.range'_eq_nil_iff]
  omega

/-- **A store loses no update.**  Whatever clients call, and in whatever order they are served,
while there is room:

* the saves of a key that succeed carry the versions after the one that it had to begin with, be it
  that of a seed or zero, without a gap and without a repetition;
* between a client's reading of a snapshot and its save at the snapshot's version nobody saved;
* a save that succeeds leaves the saved record with the version that is answered, and succeeds where
  it names the version of its key;
* a call that is refused changes nothing, and no call changes another key. -/
theorem no_lost_update (store : RecordStore) (calls : List (Client × StoreCall))
    (hroom : ∀ served ∈ store.history calls, served.met.HasRoom) :
    (∀ key, ∃ count, savedVersions key (store.history calls) =
      List.range' (store.versionOf key + 1) count) ∧
    (∀ seeds, store = ofList seeds → ∀ key, store.versionOf key =
      ((seeds.reverse.find? (·.key == key)).map (·.version)).getD 0) ∧
    (∀ before loaded between saved rest,
      store.history calls = before ++ loaded :: (between ++ saved :: rest) →
      ∀ key snapshot record version, loaded.client = saved.client → loaded.call = .load key →
        loaded.answer = .loaded snapshot → saved.call = .save record snapshot.version →
        record.key = key → saved.answer = .saved version → savedVersions key between = []) ∧
    ∀ served ∈ store.history calls,
      (∀ record expected, served.call = .save record expected →
        ((∃ version, served.answer = .saved version) ↔
          expected = served.met.versionOf record.key) ∧
        ∀ version, served.answer = .saved version →
          served.left.get? record.key = some { record with version }) ∧
      (∀ error, served.answer = .refused error → served.left = served.met) ∧
      ∀ key, key ≠ served.call.key → served.left.get? key = served.met.get? key := by
  refine ⟨fun key => ?_, fun seeds hseeds key => ?_, ?_, fun served _ => ⟨?_, ?_, ?_⟩⟩
  · obtain ⟨count, hsaved, -⟩ := exists_savedVersions_eq hroom key
    exact ⟨count, hsaved⟩
  · rw [versionOf_eq, hseeds, get?_ofList]
  · intro before loaded between saved rest hhistory key snapshot record version _ hload hloaded
      hsave hkey hsaved
    obtain ⟨_, _, -, -, hlater⟩ := history_eq_append_cons hhistory
    obtain ⟨_, _, hbetween, hmet, -⟩ := history_eq_append_cons hlater
    have hroom' : ∀ served ∈ between, served.met.HasRoom := fun served hserved =>
      hroom served (by simp [hhistory, hserved])
    subst hbetween
    rw [savedVersions_eq_nil_iff hroom', hmet]
    -- the save meets the version of the snapshot, which is the one that the reading left
    have hread : loaded.left = loaded.met ∧ loaded.met.get? key = some snapshot :=
      (hload ▸ hloaded ▸ loaded.serves).of_loaded
    have hnamed : snapshot.version = saved.met.versionOf key :=
      hkey ▸ (hsave ▸ saved.serves).saved_iff.1 ⟨version, hsaved⟩
    rw [← hnamed, hread.1, versionOf_of_get? hread.2]
  · intro record expected hcall
    have hserves := served.serves
    rw [hcall] at hserves
    exact ⟨hserves.saved_iff, fun version hanswer => (hanswer ▸ hserves).get?_of_saved⟩
  · intro error hanswer
    exact (hanswer ▸ served.serves).left_of_refused
  · exact fun key hne => served.serves.get?_of_ne hne

/-- Two clients who share a record that was seeded at version three.  The second save at that
version is refused; it succeeds once the record was read again, whatever is saved of other keys
meanwhile. -/
theorem no_lost_update_shared :
    let seed : Record := { client := 42, activity := 1, fiscalYear := some 2025, version := 3 }
    let other : Record := { client := 43, activity := 1, fiscalYear := some 2025 }
    let store := ofList [seed]
    let calls : List (Nat × StoreCall) := [
      (1, .load seed.key), (2, .load seed.key), (1, .save seed 3), (2, .save seed 3),
      (2, .load seed.key), (1, .save other 0), (2, .save seed 4)]
    let between : List (Served Nat) := ((store.history calls).drop 5).take 1
    (∀ served ∈ store.history calls, served.met.HasRoom) ∧
      (store.history calls).map (·.answer) = [
        .loaded seed, .loaded seed, .saved 4, .refused (.staleWrite seed.key 3 4),
        .loaded { seed with version := 4 }, .saved 1, .saved 5] ∧
      (∃ count, savedVersions seed.key (store.history calls) = List.range' 4 count) ∧
      savedVersions other.key between = [1] ∧ savedVersions seed.key between = [] := by
  intro seed other store calls between
  have hroom : ∀ served ∈ store.history calls, served.met.HasRoom := by decide +kernel
  obtain ⟨hcounted, -, hnone, -⟩ := no_lost_update store calls hroom
  refine ⟨hroom, by decide +kernel, hcounted seed.key, by decide +kernel, ?_⟩
  have hsplit : store.history calls = (store.history calls).take 4 ++
      ⟨2, store.after (calls.take 4), .load seed.key⟩ ::
        (between ++ [⟨2, store.after (calls.take 6), .save seed 4⟩]) := rfl
  refine hnone _ _ between _ [] hsplit seed.key { seed with version := 4 } seed 5 rfl rfl ?_ rfl rfl
    ?_
  · decide +kernel
  · decide +kernel

end RecordStore

end PeriodSheet
