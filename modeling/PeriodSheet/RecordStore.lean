import PeriodSheet.Record

/-!
# Stores of records

A store holds at most one record of each key, in ascending order of the keys.  A save names the
version that the saved record was read at and is refused where the stored record has another one, so
of two clients who read the same version only one can save.  A call that is refused leaves the store
as it is.
-/

namespace PeriodSheet

open Text

namespace RecordKey

/-- Whether a fiscal year comes before another; none comes before any. -/
def YearBefore : Option Int → Option Int → Prop
  | none, some _ => True
  | some a, some b => a < b
  | _, none => False

instance : (a b : Option Int) → Decidable (YearBefore a b)
  | none, some _ => isTrue trivial
  | some a, some b => inferInstanceAs (Decidable (a < b))
  | none, none => isFalse id
  | some _, none => isFalse id

/-- Whether a key comes before another: by client, then by activity, then by year. -/
def Before (a b : RecordKey) : Prop :=
  a.client < b.client ∨ a.client = b.client ∧ (a.activity < b.activity ∨
    a.activity = b.activity ∧ YearBefore a.fiscalYear b.fiscalYear)

instance (a b : RecordKey) : Decidable (Before a b) :=
  inferInstanceAs (Decidable (_ ∨ _))

theorem YearBefore.trans {a b c : Option Int} (hab : YearBefore a b) (hbc : YearBefore b c) :
    YearBefore a c := by
  cases a <;> cases b <;> cases c <;> simp_all [YearBefore]
  omega

theorem yearBefore_total {a b : Option Int} (h : ¬ YearBefore a b) (hne : a ≠ b) :
    YearBefore b a := by
  cases a <;> cases b <;> simp_all [YearBefore]
  omega

theorem Before.trans {a b c : RecordKey} (hab : a.Before b) (hbc : b.Before c) : a.Before c := by
  have hyear := @YearBefore.trans a.fiscalYear b.fiscalYear c.fiscalYear
  unfold Before at *
  grind

theorem before_total {a b : RecordKey} (h : ¬ a.Before b) (hne : a ≠ b) : b.Before a := by
  obtain ⟨client, activity, year⟩ := a
  obtain ⟨client', activity', year'⟩ := b
  have hyear := @yearBefore_total year year'
  simp only [Before, ne_eq, RecordKey.mk.injEq] at *
  grind

end RecordKey

/-- Records in ascending order of their keys. -/
structure RecordStore where
  records : List Record
  ascending : records.Pairwise fun a b => a.key.Before b.key
deriving DecidableEq

/-- Why a store refuses a call. -/
inductive StoreError where
  | notFound (key : RecordKey)
  | alreadyEnrolled (key : RecordKey)
  /-- The record changed after the version that the caller read. -/
  | staleWrite (key : RecordKey) (expected actual : Nat)
deriving DecidableEq

def StoreError.message : StoreError → String
  | .notFound key => "no record for " ++ key.describe
  | .alreadyEnrolled key => key.describe ++ " is already enrolled"
  | .staleWrite key expected actual =>
    "stale write for " ++ key.describe ++ ": read version " ++ ofNat expected ++
      ", stored version is " ++ ofNat actual

namespace RecordStore

/-! ### Records by key -/

/-- Puts a record at the place of its key, in place of another one with that key. -/
def putRecord (record : Record) : List Record → List Record
  | [] => [record]
  | other :: rest =>
    if record.key.Before other.key then record :: other :: rest
    else if record.key = other.key then record :: rest
    else other :: putRecord record rest

theorem mem_putRecord {record r : Record} {records : List Record}
    (h : r ∈ putRecord record records) : r = record ∨ r ∈ records := by
  induction records with
  | nil => simp_all [putRecord]
  | cons other rest ih => grind [putRecord]

theorem ascending_putRecord (record : Record) {records : List Record}
    (h : records.Pairwise fun a b => a.key.Before b.key) :
    (putRecord record records).Pairwise fun a b => a.key.Before b.key := by
  induction records with
  | nil => simp [putRecord]
  | cons other rest ih =>
    obtain ⟨hhead, hrest⟩ := List.pairwise_cons.1 h
    unfold putRecord
    split
    · rename_i hbefore
      refine List.pairwise_cons.2 ⟨fun r hr => ?_, h⟩
      rcases List.mem_cons.1 hr with rfl | hr
      · exact hbefore
      · exact hbefore.trans (hhead r hr)
    · split
      · rename_i heq
        exact List.pairwise_cons.2 ⟨fun r hr => heq ▸ hhead r hr, hrest⟩
      · rename_i hbefore hne
        refine List.pairwise_cons.2 ⟨fun r hr => ?_, ih hrest⟩
        rcases mem_putRecord hr with rfl | hr
        · exact RecordKey.before_total hbefore hne
        · exact hhead r hr

def empty : RecordStore := ⟨[], List.Pairwise.nil⟩

instance : Inhabited RecordStore := ⟨empty⟩

/-- Puts a record in place of the one with its key, whatever its version is. -/
def put (store : RecordStore) (record : Record) : RecordStore :=
  ⟨putRecord record store.records, ascending_putRecord record store.ascending⟩

/-- The store of some records; of several with one key the last stands. -/
def ofList (records : List Record) : RecordStore :=
  records.foldl put empty

def toList (store : RecordStore) : List Record :=
  store.records

def get? (store : RecordStore) (key : RecordKey) : Option Record :=
  store.records.find? (·.key == key)

/-! ### Calls -/

/-- The version after a version; versions have 64 bits. -/
def nextVersion (version : Nat) : Nat :=
  (version + 1) % twoPow 64

/-- The version that a save of a key has to name; a key without a record is at version zero. -/
def versionOf (store : RecordStore) (key : RecordKey) : Nat :=
  match store.get? key with
  | some record => record.version
  | none => 0

def load (store : RecordStore) (key : RecordKey) : Except StoreError Record :=
  match store.get? key with
  | some record => .ok record
  | none => .error (.notFound key)

/-- Saves a record that was read at a version: the store after it, and the record's new version. -/
def save (store : RecordStore) (record : Record) (expected : Nat) :
    Except StoreError (RecordStore × Nat) :=
  -- the version that the record itself carries does not count
  let actual := store.versionOf record.key
  if actual = expected then
    .ok (store.put { record with version := nextVersion actual }, nextVersion actual)
  else .error (.staleWrite record.key expected actual)

/-- Adds a blank record for a client who joins an activity. -/
def enroll (store : RecordStore) (key : RecordKey) (activity : Activity) :
    Except StoreError (RecordStore × Record) :=
  match store.get? key with
  | some _ => .error (.alreadyEnrolled key)
  | none =>
    let record := Record.enroll key activity
    .ok (store.put record, record)

end RecordStore

end PeriodSheet
