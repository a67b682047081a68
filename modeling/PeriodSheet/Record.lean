import PeriodSheet.Activity

/-!
# Records

What a client has entered for an activity, period by period.  Beside the raw values that a user
typed or a carry rule wrote, an entry keeps the computed values of the last run; those are shown but
never read again as a source.  A raw value that a carry rule wrote is marked as carried until the
user edits it.
-/

namespace PeriodSheet

open Text

structure PeriodEntry where
  /-- The period, counted from one. -/
  period : Nat
  raw : NameMap String := .empty
  computed : NameMap String := .empty
  /-- The raw values that a carry rule wrote and nobody edited since. -/
  carried : NameSet := .empty
deriving DecidableEq

namespace PeriodEntry

def blank (period : Nat) : PeriodEntry :=
  { period }

instance : Inhabited PeriodEntry := ⟨blank 1⟩

/-- The raw value of a field; none where it is blank. -/
def raw? (entry : PeriodEntry) (field : FieldName) : Option String :=
  (entry.raw.get? field).filter (!isBlankText ·)

def computed? (entry : PeriodEntry) (field : FieldName) : Option String :=
  entry.computed.get? field

def isCarried (entry : PeriodEntry) (field : FieldName) : Bool :=
  entry.carried.contains field

def edit (entry : PeriodEntry) (field : FieldName) (text : String) : PeriodEntry :=
  { entry with
    carried := entry.carried.erase field
    raw := if isBlankText text then entry.raw.erase field else entry.raw.insert field text }

def carry (entry : PeriodEntry) (field : FieldName) (text : String) : PeriodEntry :=
  { entry with
    carried := entry.carried.insert field ()
    raw := entry.raw.insert field text }

/-- Takes a carried value back. -/
def withdraw (entry : PeriodEntry) (field : FieldName) : PeriodEntry :=
  { entry with
    carried := entry.carried.erase field
    raw := entry.raw.erase field }

end PeriodEntry

/-- What tells records apart. -/
structure RecordKey where
  client : Int
  activity : Int
  /-- The fiscal year; activities without periods have none. -/
  fiscalYear : Option Int
deriving DecidableEq

def RecordKey.describe (key : RecordKey) : String :=
  "client " ++ ofInt key.client ++ " / activity " ++ ofInt key.activity ++
    match key.fiscalYear with
    | some year => " / " ++ ofInt year
    | none => ""

/-- The values of a client for an activity. -/
structure Record where
  client : Int
  activity : Int
  fiscalYear : Option Int := none
  /-- How often the record has been saved. -/
  version : Nat := 0
  entries : List PeriodEntry := []
deriving DecidableEq

namespace Record

def key (record : Record) : RecordKey :=
  ⟨record.client, record.activity, record.fiscalYear⟩

/-- The record of a client who joins an activity: a blank entry for each period. -/
def enroll (key : RecordKey) (activity : Activity) : Record :=
  { client := key.client
    activity := key.activity
    fiscalYear := key.fiscalYear
    entries := (List.range' 1 activity.periodCount).map .blank }

def entry? (record : Record) (period : Nat) : Option PeriodEntry :=
  record.entries.find? (·.period == period)

/-! ### Writing into entries -/

/-- The entry that a change of a period starts from: the first entry that is not of an earlier
period, if it is the period's own, else a blank one. -/
def openEntry (period : Nat) : List PeriodEntry → PeriodEntry
  | [] => .blank period
  | entry :: rest =>
    if entry.period < period then openEntry period rest
    else if entry.period = period then entry
    else .blank period

/-- Puts the changed entry of a period where the change started from: in place of the period's own
entry, else before the first entry of a later period. -/
def putEntry (changed : PeriodEntry) : List PeriodEntry → List PeriodEntry
  | [] => [changed]
  | entry :: rest =>
    if entry.period < changed.period then entry :: putEntry changed rest
    else if entry.period = changed.period then changed :: rest
    else changed :: entry :: rest

/-- The entry that a change of a period starts from. -/
def opened (record : Record) (period : Nat) : PeriodEntry :=
  openEntry period record.entries

def put (record : Record) (changed : PeriodEntry) : Record :=
  { record with entries := putEntry changed record.entries }

def edit (record : Record) (period : Nat) (field : FieldName) (text : String) : Record :=
  record.put ((record.opened period).edit field text)

theorem openEntry_period (period : Nat) (entries : List PeriodEntry) :
    (openEntry period entries).period = period := by
  fun_induction openEntry period entries with
  | case1 => rfl
  | case2 entry rest h ih => exact ih
  | case3 entry rest h heq => exact heq
  | case4 => rfl

/-- What was put in place is what the next change of that period starts from. -/
theorem openEntry_putEntry (changed : PeriodEntry) (entries : List PeriodEntry) :
    openEntry changed.period (putEntry changed entries) = changed := by
  induction entries with
  | nil => simp [putEntry, openEntry]
  | cons entry rest ih =>
    unfold putEntry
    split
    · rename_i h
      simpa [openEntry, h] using ih
    · split <;> simp [openEntry]

end Record

end PeriodSheet
