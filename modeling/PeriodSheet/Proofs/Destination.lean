import PeriodSheet.Proofs.Receiving
import PeriodSheet.Proofs.RunInput

/-!
# What becomes of a destination

Several carry rules may share a destination, and each of them sees what the ones before it left
there.  What stands there in the end is told by one of them alone: the last one whose origin did not
fail (`Carrying.decidingRules`).  If it fires, its number stands there; if it does not, nothing that
was carried does.

* On a slot that holds nothing of a user's, each action that stands for a value has its way, and
  leaves such a slot again (`CarryAction.apply_write`, `CarryAction.apply_withdraw`).
* So the last action of a run decides (`CarryAction.run_of_getLast?`), the ones without a value left
  out.
* `Computation.ofRecord_destination` says this of a computed record, for both policies.
-/

namespace PeriodSheet

open Text

/-! ### The last action -/

namespace CarryAction

variable {policy : CarryPolicy} {slot : Slot}

/-- Where manual values are preserved, a slot may be written unless it holds one. -/
theorem allows_preserveManual_iff :
    CarryPolicy.preserveManual.allows slot.shown slot.isCarried = true ↔ ¬ slot.IsManual := by
  cases hshown : slot.shown with
  | none => simp [CarryPolicy.allows, Slot.IsManual, hshown]
  | some text =>
    have hblank : isBlankText text = false := by
      have := (Option.filter_eq_some_iff.1 hshown).2
      simpa using this
    simp [CarryPolicy.allows, Slot.IsManual, hshown, hblank]

/-- A text that may be written is shown afterwards, at least up to white space around it. -/
theorem shown_apply_write (hallows : policy.allows slot.shown slot.isCarried = true) {text : String}
    (htrimmed : Text.IsTrimmed text) :
    (apply policy slot (.write text)).shown.map trim = some text := by
  by_cases hsame : slot.shown.map trim = some text
  · simp [apply, change?, hallows, hsame]
  · have happly : apply policy slot (.write text) = .carrying (some text) := by
      simp [apply, change?, hallows, hsame]
    have hshown : (Slot.carrying (some text)).shown = some text := by
      simp [Slot.shown, Slot.carrying, htrimmed.1]
    rw [happly, hshown, Option.map_some, htrimmed.2]

theorem apply_write (hslot : ¬ slot.IsManual) {text : String} (htrimmed : Text.IsTrimmed text) :
    (apply .preserveManual slot (.write text)).isCarried = true ∧
      (apply .preserveManual slot (.write text)).shown.map trim = some text := by
  have hallows := allows_preserveManual_iff.2 hslot
  refine ⟨?_, shown_apply_write hallows htrimmed⟩
  by_cases hsame : slot.shown.map trim = some text
  · -- the text is there already, and it is not a user's
    have hshown : slot.shown.isSome = true := by
      obtain ⟨raw, hraw, -⟩ := Option.map_eq_some_iff.1 hsame
      rw [hraw]
      rfl
    have hcarried : slot.isCarried = true := by
      by_contra hnot
      exact hslot ⟨hshown, Bool.eq_false_iff.2 hnot⟩
    simpa [apply, change?, hallows, hsame] using hcarried
  · simp [apply, change?, hallows, hsame, Slot.carrying]

/-- A slot without a user's value holds nothing after a withdrawal. -/
theorem apply_withdraw (hslot : ¬ slot.IsManual) :
    (apply policy slot .withdraw).isCarried = false ∧
      (apply policy slot .withdraw).shown = none := by
  cases hcarried : slot.isCarried with
  | true => simp [apply, change?, hcarried, Slot.carrying, Slot.shown]
  | false =>
    have hshown : slot.shown = none := by
      rw [Slot.IsManual, hcarried, not_and] at hslot
      simpa using hslot
    simp [apply, change?, hcarried, hshown]

theorem not_isManual_apply (hslot : ¬ slot.IsManual) (action : CarryAction) :
    ¬ (apply policy slot action).IsManual := by
  unfold apply
  cases action.change? policy slot with
  | none => exact hslot
  | some value => cases value <;> simp [Slot.IsManual, Slot.carrying, Slot.shown]

theorem not_isManual_run (hslot : ¬ slot.IsManual) (actions : List CarryAction) :
    ¬ (run policy actions slot).IsManual :=
  List.foldlRecOn (motive := fun slot : Slot => ¬ slot.IsManual) actions _ hslot
    fun _ hslot action _ => not_isManual_apply hslot action

/-- Actions that stand for no value can be left out. -/
theorem run_filter (policy : CarryPolicy) (actions : List CarryAction) (slot : Slot) :
    run policy (actions.filter (·.value?.isSome)) slot = run policy actions slot := by
  induction actions generalizing slot with
  | nil => rfl
  | cons action rest ih =>
    cases h : action.value? with
    | none =>
      rw [List.filter_cons_of_neg (by simp [h]), ih, run_cons, apply_of_value?_none h]
    | some value => rw [List.filter_cons_of_pos (by simp [h]), run_cons, run_cons, ih]

/-- The last action meets what the ones before it left. -/
theorem run_of_getLast? (policy : CarryPolicy) {actions : List CarryAction} {last : CarryAction}
    (h : actions.getLast? = some last) (slot : Slot) :
    run policy actions slot = apply policy (run policy actions.dropLast slot) last := by
  obtain ⟨before, rfl⟩ := List.getLast?_eq_some_iff.1 h
  rw [List.dropLast_concat]
  exact List.foldl_concat ..

end CarryAction

/-! ### The rules that decide -/

namespace Carrying

variable {plan : Plan} {view : PeriodView} {outcome : Outcome}

/-- The number that a field stands for in a period: the one that it was computed to, or else the one
that its valid text is, be it raw or a default. -/
def numberOf? (view : PeriodView) (outcome : Outcome) (field : FieldName) : Option Decimal :=
  outcome.computed.get? field <|> (view.raw.get? field).bind Decimal.ofEntered?

/-- The number that a rule carries, where it fires. -/
def fired? (view : PeriodView) (outcome : Outcome) (rule : CarryRule) : Option Decimal :=
  (numberOf? view outcome rule.origin).filter rule.condition.holds

/-- The active rules that carry into a field, in their order, without those whose origin failed. -/
def decidingRules (plan : Plan) (outcome : Outcome) (field : FieldName) : List CarryRule :=
  plan.activity.carryRules.filter fun rule =>
    rule.isActive && rule.destination.same field && !outcome.failures.contains rule.origin

/-- A rule whose origin did not fail writes its number where it fires, and takes back what was
carried where it does not. -/
theorem action_of_not_failed (settings : Settings) {rule : CarryRule}
    (h : outcome.failures.contains rule.origin = false) :
    action settings view outcome rule =
      (fired? view outcome rule).elim .withdraw fun value =>
        .write (settings.numberFormat.formatPlain value) := by
  rw [NameMap.contains_eq_isSome, Option.isSome_eq_false_iff, Option.isNone_iff_eq_none] at h
  -- whatever the origin reads as, the condition decides on its number alone
  have hnumber (value : Decimal) :
      (if rule.condition.holds value = true then
          CarryAction.write (settings.numberFormat.formatPlain value) else .withdraw) =
        ((some value).filter rule.condition.holds).elim .withdraw fun value =>
          .write (settings.numberFormat.formatPlain value) := by
    by_cases hholds : rule.condition.holds value = true <;> simp [hholds, Option.filter]
  unfold action fired? numberOf? CarryOrigin.ofName
  simp only [h]
  cases outcome.computed.get? rule.origin with
  | some value => exact hnumber value
  | none =>
    cases view.raw.get? rule.origin with
    | none => rfl
    | some text =>
      cases hread : Decimal.ofEntered? text with
      | none => simp [hread]
      | some value => simpa [hread] using hnumber value

/-- The actions that stand for a value are those of the rules that decide. -/
theorem filter_actionsFor (plan : Plan) (view : PeriodView) (outcome : Outcome)
    (field : FieldName) :
    (actionsFor plan view outcome field).filter (·.value?.isSome) =
      (decidingRules plan outcome field).map (action plan.settings view outcome) := by
  have hvalue (rule : CarryRule) : (action plan.settings view outcome rule).value?.isSome =
      !outcome.failures.contains rule.origin := by
    have hiff := value?_action plan.settings view outcome rule
    rw [Bool.eq_iff_iff, Bool.not_eq_true', Option.isSome_iff_ne_none, ne_eq, hiff,
      Bool.not_eq_true]
  rw [actionsFor, List.filter_map, activeRules, List.filter_filter, List.filter_filter,
    decidingRules]
  refine congrArg _ (List.filter_congr fun rule _ => ?_)
  rw [Function.comp_apply, hvalue, carriesInto]
  ac_rfl

/-- A rule that decides is not held up by its origin. -/
theorem action_of_getLast? (settings : Settings) {field : FieldName} {rule : CarryRule}
    (h : (decidingRules plan outcome field).getLast? = some rule) :
    action settings view outcome rule =
      (fired? view outcome rule).elim .withdraw fun value =>
        .write (settings.numberFormat.formatPlain value) := by
  have hdecides := (List.mem_filter.1 (List.mem_of_getLast? h)).2
  simp only [Bool.and_eq_true, Bool.not_eq_true'] at hdecides
  exact action_of_not_failed settings hdecides.2

/-- The last rule that decides acts on the slot that the others leave. -/
theorem run_actionsFor_of_getLast? (policy : CarryPolicy) {field : FieldName} {rule : CarryRule}
    (h : (decidingRules plan outcome field).getLast? = some rule) (slot : Slot) :
    CarryAction.run policy (actionsFor plan view outcome field) slot =
      CarryAction.apply policy
        (CarryAction.run policy ((decidingRules plan outcome field).map
          (action plan.settings view outcome)).dropLast slot)
        (action plan.settings view outcome rule) := by
  rw [← CarryAction.run_filter, filter_actionsFor]
  exact CarryAction.run_of_getLast? policy (by rw [List.getLast?_map, h]; rfl) slot

theorem run_actionsFor_of_eq_nil (policy : CarryPolicy) {field : FieldName}
    (h : decidingRules plan outcome field = []) (slot : Slot) :
    CarryAction.run policy (actionsFor plan view outcome field) slot = slot := by
  rw [← CarryAction.run_filter, filter_actionsFor, h]
  rfl

end Carrying

/-! ### Computed records -/

namespace Computation

/-- **The last rule decides about a destination.**  A period of the range carries into the next one,
of which the record may have had an entry.  Among the active rules that carry into a field, and
whose origin did not fail in the period, the last one decides.

* Where manual values are preserved, a user's value stays, with or without such a rule.  Otherwise
  the field is marked and holds the rule's number if the rule fires, and is neither marked nor holds
  a value if it does not; without such a rule it stays as it is.
* Where they are not, the field holds the rule's number if the rule fires, whatever it held. -/
theorem ofRecord_destination (activity : Activity) (settings : Settings) (record : Record)
    (hsorted : record.Sorted) (range : PeriodRange) (period : Nat)
    (hperiod : period ∈ range.periods activity.periodCount)
    (hlast : period < activity.periodCount) (field : FieldName) :
    let plan := Plan.ofActivity settings activity
    let computation := ofRecord plan record range
    let source := computation.record.opened period
    let before := record.opened (period + 1)
    let after := computation.record.opened (period + 1)
    let rules := Carrying.decidingRules plan (source.outcome plan) field
    let fired? := Carrying.fired? (source.view plan) (source.outcome plan)
    let text := settings.numberFormat.formatPlain
    computation.sheet.row? period = some (source.row plan) ∧
    computation.record.entry? (period + 1) = some after ∧
    (settings.carryPolicy = .preserveManual →
      ((before.slot field).IsManual → after.slot field = before.slot field) ∧
      (¬ (before.slot field).IsManual →
        (rules = [] → after.slot field = before.slot field) ∧
        ∀ rule, rules.getLast? = some rule →
          (∀ value, fired? rule = some value →
            after.isCarried field = true ∧ (after.raw? field).map trim = some (text value)) ∧
          (fired? rule = none → after.raw? field = none ∧ after.isCarried field = false))) ∧
    (settings.carryPolicy = .overwrite →
      ∀ rule value, rules.getLast? = some rule → fired? rule = some value →
        (after.raw? field).map trim = some (text value)) := by
  intro plan computation source before after rules fired? text
  have hslot : after.slot field = CarryAction.run plan.settings.carryPolicy
      (Carrying.actionsFor plan (source.view plan) (source.outcome plan) field)
      (before.slot field) := slot_opened_next plan range hsorted hperiod hlast field
  have hhas : computation.record.Has (period + 1) :=
    (settled_ofRecord hsorted hperiod).has_next hlast
  have htrimmed := settings.numberFormat.isTrimmed_formatPlain
  refine ⟨row?_ofRecord hsorted hperiod, (sorted_ofRecord plan hsorted range).entry?_of_has hhas,
    fun hpolicy => ⟨fun hmanual => ?_, fun hmanual => ⟨fun hnone => ?_, fun rule hrule => ?_⟩⟩,
    fun hpolicy rule value hrule hvalue => ?_⟩
  · rw [hslot, show plan.settings.carryPolicy = .preserveManual from hpolicy,
      CarryAction.run_manual hmanual]
  · rw [hslot, Carrying.run_actionsFor_of_eq_nil _ hnone]
  · rw [Carrying.run_actionsFor_of_getLast? _ hrule, Carrying.action_of_getLast? _ hrule] at hslot
    rw [PeriodEntry.raw?_eq_shown, show after.isCarried field = (after.slot field).isCarried from
      rfl, hslot, show plan.settings.carryPolicy = .preserveManual from hpolicy]
    -- the rules before the last one leave no value of a user's
    have hfree (actions : List CarryAction) :
        ¬ (CarryAction.run .preserveManual actions (before.slot field)).IsManual :=
      CarryAction.not_isManual_run hmanual actions
    refine ⟨fun value hvalue => ?_, fun hnone => ?_⟩
    · rw [show Carrying.fired? _ _ rule = some value from hvalue]
      exact CarryAction.apply_write (hfree _) (htrimmed value)
    · rw [show Carrying.fired? _ _ rule = none from hnone]
      exact (CarryAction.apply_withdraw (hfree _)).symm
  · rw [Carrying.run_actionsFor_of_getLast? _ hrule, Carrying.action_of_getLast? _ hrule,
      show Carrying.fired? _ _ rule = some value from hvalue] at hslot
    rw [PeriodEntry.raw?_eq_shown, hslot]
    refine CarryAction.shown_apply_write ?_ (htrimmed value)
    rw [show plan.settings.carryPolicy = .overwrite from hpolicy]
    rfl

/-- A credit and a share compete for a field in which an earlier run left another credit.  The share
comes last but fails where nothing is due, so that the credit decides. -/
theorem ofRecord_destination_credits :
    let activity := Credits.activity [Credits.creditRule, Credits.shareRule]
    let plan := Plan.ofActivity {} activity
    let entered := Credits.carried "250"
    let computed := (ofRecord plan entered .all).record
    let source := computed.opened 1
    entered.Sorted ∧ 1 ∈ PeriodRange.all.periods activity.periodCount ∧
      1 < activity.periodCount ∧ ¬ ((entered.opened 2).slot Credits.previous).IsManual ∧
      (Carrying.decidingRules plan (source.outcome plan) Credits.previous).getLast? =
        some Credits.creditRule ∧
      (Carrying.fired? (source.view plan) (source.outcome plan) Credits.creditRule).isSome = true ∧
      (computed.opened 2).isCarried Credits.previous = true ∧
      ((computed.opened 2).raw? Credits.previous).map trim = some "300" := by
  intro activity plan entered computed source
  have hplan : plan = Credits.plan [Credits.creditRule, Credits.shareRule] := Credits.plan_eq _
  have hsorted : entered.Sorted := by decide
  have hperiod : 1 ∈ PeriodRange.all.periods activity.periodCount := by decide
  have hlast : 1 < activity.periodCount := by decide
  have hmanual : ¬ ((entered.opened 2).slot Credits.previous).IsManual := by
    rintro ⟨-, hcarried⟩
    exact absurd hcarried (by decide)
  have hrules : (Carrying.decidingRules plan (source.outcome plan) Credits.previous).getLast? =
      some Credits.creditRule := by
    simp only [source, computed, hplan]
    decide +kernel
  have hfired : (Carrying.fired? (source.view plan) (source.outcome plan) Credits.creditRule).map
      (({} : Settings).numberFormat.formatPlain) = some "300" := by
    simp only [source, computed, hplan]
    decide +kernel
  obtain ⟨value, hvalue, htext⟩ := Option.map_eq_some_iff.1 hfired
  obtain ⟨-, -, hpreserve, -⟩ :=
    ofRecord_destination activity {} entered hsorted .all 1 hperiod hlast Credits.previous
  obtain ⟨-, hdecides⟩ := (hpreserve rfl).2 hmanual
  obtain ⟨hcarried, hraw⟩ := (hdecides Credits.creditRule hrules).1 value hvalue
  rw [htext] at hraw
  exact ⟨hsorted, hperiod, hlast, hmanual, hrules, Option.isSome_iff_exists.2 ⟨value, hvalue⟩,
    hcarried, hraw⟩

end Computation

end PeriodSheet
