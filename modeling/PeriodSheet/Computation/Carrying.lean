import PeriodSheet.Computation.Outcome

/-!
# Carrying into the next period

Applies the carry rules of an activity, in their order, from the outcome of a period to the entry of
the next one, and records each value that was written or taken back.  A rule whose origin failed
does nothing.  A rule whose origin has no number, or whose condition does not hold, takes back what
an earlier run carried.
-/

namespace PeriodSheet

/-- A carried value that was written, or taken back where there is none. -/
structure CarryEvent where
  rule : Int
  source : Nat
  target : Nat
  field : FieldName
  value : Option String
deriving DecidableEq

def CarryEvent.toJson (event : CarryEvent) : Json :=
  .record [
    ("rule_id", .integer event.rule),
    ("from_period", .ofNat event.source),
    ("to_period", .ofNat event.target),
    ("field", event.field.toJson),
    ("value", .ofOption .text event.value)]

/-- What the origin of a carry rule holds in a period. -/
inductive CarryOrigin where
  | failed (error : FormulaError)
  | number (value : Decimal)
  /-- A raw text that is not a number. -/
  | text (raw : String)
  | missing
deriving DecidableEq

namespace CarryOrigin

def ofName (view : PeriodView) (outcome : Outcome) (name : FieldName) : CarryOrigin :=
  match outcome.failures.get? name with
  | some error => .failed error
  | none =>
    match outcome.computed.get? name with
    | some value => .number value
    | none =>
      match view.raw.get? name with
      | none => .missing
      | some raw =>
        match Decimal.ofEntered? raw with
        | some value => .number value
        | none => .text raw

end CarryOrigin

/-- The entry that is carried into, with what happened so far. -/
structure Carrying where
  entry : PeriodEntry
  events : List CarryEvent := []
  notices : List Notice := []

namespace Carrying

def note (carrying : Carrying) (notice : Notice) : Carrying :=
  { carrying with notices := carrying.notices ++ [notice] }

/-- Takes back what was carried into the rule's destination, if anything was. -/
def withdraw (rule : CarryRule) (period : Nat) (carrying : Carrying) : Carrying :=
  if carrying.entry.isCarried rule.destination then
    { carrying with
      entry := carrying.entry.withdraw rule.destination
      events := carrying.events ++
        [⟨rule.id, period, carrying.entry.period, rule.destination, none⟩] }
  else carrying

/-- Writes a number into the rule's destination, unless a user's value stands there or the text is
there already. -/
def write (settings : Settings) (rule : CarryRule) (period : Nat) (value : Decimal)
    (carrying : Carrying) : Carrying :=
  let current := carrying.entry.raw? rule.destination
  if settings.carryPolicy.allows current (carrying.entry.isCarried rule.destination) then
    match rule.apply settings.numberFormat value current with
    | none => carrying
    | some text =>
      { carrying with
        entry := carrying.entry.carry rule.destination text
        events := carrying.events ++
          [⟨rule.id, period, carrying.entry.period, rule.destination, some text⟩] }
  else carrying.note (.manualKept rule.id rule.destination carrying.entry.period)

def apply (settings : Settings) (period : Nat) (view : PeriodView) (outcome : Outcome)
    (carrying : Carrying) (rule : CarryRule) : Carrying :=
  match CarryOrigin.ofName view outcome rule.origin with
  | .failed error => carrying.note (.originFailed rule.id period rule.origin error)
  | .number value =>
    if rule.condition.holds value then carrying.write settings rule period value
    else carrying.withdraw rule period
  | .text raw =>
    (carrying.note (.originNotNumeric rule.id period rule.origin raw)).withdraw rule period
  | .missing => carrying.withdraw rule period

/-- Applies the active rules of an activity to the entry of the next period. -/
def ofRules (plan : Plan) (period : Nat) (view : PeriodView) (outcome : Outcome)
    (next : PeriodEntry) : Carrying :=
  (plan.activity.carryRules.filter (·.isActive)).foldl (apply plan.settings period view outcome)
    { entry := next }

end Carrying

end PeriodSheet
