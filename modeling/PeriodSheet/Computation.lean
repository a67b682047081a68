import PeriodSheet.Computation.Carrying
import PeriodSheet.Computation.Rows
import PeriodSheet.PeriodRange
import PeriodSheet.RecordStore

/-!
# Computing records

Computes the periods of a range in ascending order.  Each period is evaluated on the raw values that
its entry holds when its turn comes, so that what a period carries is there when the next one is
evaluated.  The result is the sheet, the record with its new values, and the carry events.
-/

namespace PeriodSheet

structure Computing where
  record : Record
  rows : List Row := []
  carried : List CarryEvent := []
  notices : List Notice := []

namespace Computing

/-- Carries out of a period into the next one, if there is a next one. -/
def carryOver (plan : Plan) (period : Nat) (view : PeriodView) (outcome : Outcome)
    (computing : Computing) : Computing :=
  if period < plan.activity.periodCount then
    let carrying :=
      Carrying.ofRules plan period view outcome (computing.record.opened (period + 1))
    { computing with
      record := computing.record.put carrying.entry
      carried := computing.carried ++ carrying.events
      notices := computing.notices ++ carrying.notices }
  -- after the last period nothing is carried, which is reported only where a rule would carry
  else if plan.activity.carryRules.any (·.isActive) then
    { computing with notices := computing.notices ++ [.lastPeriod period] }
  else computing

/-- Computes a period: evaluates it, keeps the computed values, carries, and builds the row. -/
def step (plan : Plan) (computing : Computing) (period : Nat) : Computing :=
  let record := computing.record
  let view := PeriodView.ofFields plan.fields (record.entry? period)
  let outcome := Outcome.ofView plan period view
  let entry :=
    { record.opened period with computed := outcome.texts plan.settings.numberFormat }
  let evaluated : Computing :=
    { computing with
      record := record.put entry
      notices := computing.notices ++
        .computing record.client plan.activity.id period :: outcome.notices }
  let carried := evaluated.carryOver plan period view outcome
  { carried with
    rows := carried.rows ++ [ComputedPeriod.row plan ⟨period, view, outcome, entry⟩] }

end Computing

structure Computation where
  sheet : Sheet
  /-- The record with its new values. -/
  record : Record
  carried : List CarryEvent
  notices : List Notice
deriving DecidableEq

namespace Computation

/-- What is reported when a record is computed by the plan of another activity. -/
def foreignNotice (plan : Plan) (record : Record) : List Notice :=
  if record.activity = plan.activity.id then []
  else [.foreignRecord record.activity plan.activity.id]

/-- Computes the periods of a range. -/
def ofRecord (plan : Plan) (record : Record) (range : PeriodRange) : Computation :=
  let computed := (range.periods plan.activity.periodCount).foldl (Computing.step plan)
    { record, notices := foreignNotice plan record }
  { sheet := .ofRows plan computed.record computed.rows
    record := computed.record
    carried := computed.carried
    notices := computed.notices }

def toJson (computation : Computation) : Json :=
  .record [
    ("grid", computation.sheet.toJson),
    ("record", computation.record.toJson),
    ("carried", .ofList CarryEvent.toJson computation.carried)]

end Computation

/-- Computes a stored record and saves the result at the version that was read. -/
def RecordStore.recompute (store : RecordStore) (plan : Plan) (key : RecordKey)
    (range : PeriodRange) : Except StoreError (RecordStore × Computation) :=
  match store.load key with
  | .error error => .error error
  | .ok snapshot =>
    let computation := Computation.ofRecord plan snapshot range
    -- the version of the snapshot: a save by anyone else since then makes this one stale
    match store.save computation.record snapshot.version with
    | .error error => .error error
    | .ok (saved, version) => .ok (saved, { computation with record.version := version })

end PeriodSheet
