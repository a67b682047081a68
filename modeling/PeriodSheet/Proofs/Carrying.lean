import PeriodSheet.Computation.Carrying
import PeriodSheet.Proofs.Slot

/-!
# What carry rules do to an entry

A carry rule reads the period that is carried from and changes one field of the next entry.  What it
sets out to do is its `action`, which the period that is carried from decides; what comes of it
depends on the slot of its destination alone (`apply_eq`).

So the rules of an activity act on each field's slot by the actions of those rules that carry into
the field, one after the other (`slot_ofRules`), and leave the rest of the entry alone.
-/

namespace PeriodSheet.Carrying

open Text

/-- The rules of an activity that carry, in their order. -/
def activeRules (plan : Plan) : List CarryRule :=
  plan.activity.carryRules.filter (·.isActive)

/-! ### One rule -/

/-- What a rule sets out to do with its destination. -/
def action (settings : Settings) (view : PeriodView) (outcome : Outcome) (rule : CarryRule) :
    CarryAction :=
  match CarryOrigin.ofName view outcome rule.origin with
  | .failed _ => .keep
  | .number value =>
    if rule.condition.holds value then .write (settings.numberFormat.formatPlain value)
    else .withdraw
  | .text _ => .withdraw
  | .missing => .withdraw

/-- What a rule writes is a trimmed text. -/
theorem isTrimmed_action (settings : Settings) (view : PeriodView) (outcome : Outcome)
    (rule : CarryRule) : (action settings view outcome rule).IsTrimmed := by
  unfold action
  cases CarryOrigin.ofName view outcome rule.origin with
  | failed error => trivial
  | number value =>
    dsimp only
    split
    · exact settings.numberFormat.isTrimmed_formatPlain value
    · trivial
  | text raw => trivial
  | missing => trivial

/-- A rule stands for a value unless its origin failed. -/
theorem value?_action (settings : Settings) (view : PeriodView) (outcome : Outcome)
    (rule : CarryRule) :
    (action settings view outcome rule).value? = none ↔
      outcome.failures.contains rule.origin = true := by
  rw [NameMap.contains_eq_isSome, action, CarryOrigin.ofName]
  cases outcome.failures.get? rule.origin with
  | some error => simp [CarryAction.value?]
  | none =>
    simp only [Option.isSome_none, Bool.false_eq_true, iff_false]
    split
    · rename_i herror
      -- no text or number that is looked up reads as a failure
      split at herror
      · cases herror
      · split at herror
        · cases herror
        · split at herror <;> cases herror
    · split <;> simp [CarryAction.value?]
    · simp [CarryAction.value?]
    · simp [CarryAction.value?]

/-- The change of a rule's destination, where the rule changes it. -/
def change? (settings : Settings) (view : PeriodView) (outcome : Outcome) (entry : PeriodEntry)
    (rule : CarryRule) : Option (Option String) :=
  (action settings view outcome rule).change? settings.carryPolicy (entry.slot rule.destination)

/-- The entry after the change of a field. -/
def changed (entry : PeriodEntry) (field : FieldName) (change : Option (Option String)) :
    PeriodEntry :=
  change.elim entry (entry.receive field)

/-- The event that reports a change. -/
def eventsOf (rule : CarryRule) (period target : Nat) (change : Option (Option String)) :
    List CarryEvent :=
  change.elim [] fun value => [⟨rule.id, period, target, rule.destination, value⟩]

theorem withdraw_eq (policy : CarryPolicy) (rule : CarryRule) (period : Nat)
    (carrying : Carrying) :
    let change := CarryAction.withdraw.change? policy (carrying.entry.slot rule.destination)
    (carrying.withdraw rule period).entry = changed carrying.entry rule.destination change ∧
      (carrying.withdraw rule period).events =
        carrying.events ++ eventsOf rule period carrying.entry.period change := by
  cases h : carrying.entry.isCarried rule.destination <;>
    simp [withdraw, CarryAction.change?, PeriodEntry.slot, h, changed, eventsOf,
      PeriodEntry.receive]

theorem write_eq (settings : Settings) {rule : CarryRule} (hactive : rule.isActive = true)
    (period : Nat) {value : Decimal} (hholds : rule.condition.holds value = true)
    (carrying : Carrying) :
    let change := (CarryAction.write (settings.numberFormat.formatPlain value)).change?
      settings.carryPolicy (carrying.entry.slot rule.destination)
    (carrying.write settings rule period value).entry =
        changed carrying.entry rule.destination change ∧
      (carrying.write settings rule period value).events =
        carrying.events ++ eventsOf rule period carrying.entry.period change := by
  -- the action asks for what the rule asks for, in the same order
  have hchange : (CarryAction.write (settings.numberFormat.formatPlain value)).change?
      settings.carryPolicy (carrying.entry.slot rule.destination) =
        if settings.carryPolicy.allows (carrying.entry.raw? rule.destination)
            (carrying.entry.isCarried rule.destination) then
          if (carrying.entry.raw? rule.destination).map trim =
              some (settings.numberFormat.formatPlain value) then none
          else some (some (settings.numberFormat.formatPlain value))
        else none := rfl
  rw [hchange]
  simp only [write, CarryRule.apply, hactive, hholds, Bool.not_true, Bool.or_self,
    Bool.false_eq_true, if_false]
  by_cases hallows : settings.carryPolicy.allows (carrying.entry.raw? rule.destination)
      (carrying.entry.isCarried rule.destination) = true
  · rw [if_pos hallows, if_pos hallows]
    by_cases hsame : (carrying.entry.raw? rule.destination).map trim =
        some (settings.numberFormat.formatPlain value)
    · rw [if_pos hsame, if_pos hsame]
      exact ⟨rfl, (List.append_nil _).symm⟩
    · rw [if_neg hsame, if_neg hsame]
      exact ⟨rfl, rfl⟩
  · rw [if_neg hallows, if_neg hallows]
    exact ⟨rfl, (List.append_nil _).symm⟩

/-- A rule changes its destination as its action says, and reports the change. -/
theorem apply_eq (settings : Settings) (period : Nat) (view : PeriodView) (outcome : Outcome)
    (carrying : Carrying) {rule : CarryRule} (hactive : rule.isActive = true) :
    let change := change? settings view outcome carrying.entry rule
    (apply settings period view outcome carrying rule).entry =
        changed carrying.entry rule.destination change ∧
      (apply settings period view outcome carrying rule).events =
        carrying.events ++ eventsOf rule period carrying.entry.period change := by
  unfold change? apply action
  cases CarryOrigin.ofName view outcome rule.origin with
  | failed error => exact ⟨rfl, (List.append_nil _).symm⟩
  | number value =>
    dsimp only
    split
    · rename_i hholds
      exact write_eq settings hactive period hholds carrying
    · exact withdraw_eq settings.carryPolicy rule period carrying
  | text raw => exact withdraw_eq settings.carryPolicy rule period (carrying.note _)
  | missing => exact withdraw_eq settings.carryPolicy rule period carrying

theorem slot_changed (policy : CarryPolicy) (entry : PeriodEntry) (field other : FieldName)
    (action : CarryAction) :
    (changed entry field (action.change? policy (entry.slot field))).slot other =
      if field.same other then action.apply policy (entry.slot other) else entry.slot other := by
  by_cases h : field.same other = true
  · rw [if_pos h, PeriodEntry.slot_congr entry h, CarryAction.apply, changed]
    cases action.change? policy (entry.slot other) with
    | none => rfl
    | some value => simp [PeriodEntry.slot_receive, h]
  · rw [if_neg h, changed]
    cases action.change? policy (entry.slot field) with
    | none => rfl
    | some value => simp [PeriodEntry.slot_receive, h]

theorem frame_changed (entry : PeriodEntry) (field : FieldName)
    (change : Option (Option String)) :
    (changed entry field change).period = entry.period ∧
      (changed entry field change).computed = entry.computed := by
  rcases change with _ | _ | text <;> exact ⟨rfl, rfl⟩

/-! ### All rules -/

/-- Whether a rule carries into a field. -/
def carriesInto (field : FieldName) (rule : CarryRule) : Bool :=
  rule.destination.same field

/-- What the rules that carry into a field set out to do with it, in their order. -/
def actionsFor (plan : Plan) (view : PeriodView) (outcome : Outcome) (field : FieldName) :
    List CarryAction :=
  ((activeRules plan).filter (carriesInto field)).map (action plan.settings view outcome)

theorem isTrimmed_of_mem_actionsFor {plan : Plan} {view : PeriodView} {outcome : Outcome}
    {field : FieldName} {a : CarryAction} (h : a ∈ actionsFor plan view outcome field) :
    a.IsTrimmed := by
  obtain ⟨rule, -, rfl⟩ := List.mem_map.1 h
  exact isTrimmed_action plan.settings view outcome rule

/-- A field is given a value where the origin of some rule that carries into it did not fail. -/
theorem exists_value_actionsFor {plan : Plan} {view : PeriodView} {outcome : Outcome}
    {field : FieldName} :
    (∃ a ∈ actionsFor plan view outcome field, a.value? ≠ none) ↔
      ∃ rule ∈ plan.activity.carryRules, rule.isActive = true ∧
        rule.destination.same field = true ∧ outcome.failures.contains rule.origin = false := by
  have hvalue (rule : CarryRule) : (action plan.settings view outcome rule).value? ≠ none ↔
      outcome.failures.contains rule.origin = false := by
    rw [ne_eq, value?_action, Bool.not_eq_true]
  constructor
  · rintro ⟨_, hmem, hne⟩
    obtain ⟨rule, hrule, rfl⟩ := List.mem_map.1 hmem
    obtain ⟨hactive, hinto⟩ := List.mem_filter.1 hrule
    obtain ⟨hmem, hactive⟩ := List.mem_filter.1 hactive
    exact ⟨rule, hmem, hactive, hinto, (hvalue rule).1 hne⟩
  · rintro ⟨rule, hmem, hactive, hinto, hfine⟩
    have hrule : rule ∈ (activeRules plan).filter (carriesInto field) :=
      List.mem_filter.2 ⟨List.mem_filter.2 ⟨hmem, hactive⟩, hinto⟩
    exact ⟨_, List.mem_map_of_mem hrule, (hvalue rule).2 hfine⟩

/-- The rules act on the slot of each field by the actions of those that carry into it. -/
theorem slot_ofRules (plan : Plan) (period : Nat) (view : PeriodView) (outcome : Outcome)
    (next : PeriodEntry) (field : FieldName) :
    (ofRules plan period view outcome next).entry.slot field =
      CarryAction.run plan.settings.carryPolicy (actionsFor plan view outcome field)
        (next.slot field) := by
  have key : ∀ (rules : List CarryRule), (∀ rule ∈ rules, rule.isActive = true) →
      ∀ carrying : Carrying,
        (rules.foldl (apply plan.settings period view outcome) carrying).entry.slot field =
          CarryAction.run plan.settings.carryPolicy
            ((rules.filter (carriesInto field)).map (action plan.settings view outcome))
            (carrying.entry.slot field) := by
    intro rules hactive
    induction rules with
    | nil => exact fun _ => rfl
    | cons rule rest ih =>
      intro carrying
      obtain ⟨hentry, -⟩ := apply_eq plan.settings period view outcome carrying
        (hactive rule List.mem_cons_self)
      -- a rule acts on the field where it carries into it, and is passed over elsewhere
      rw [List.foldl_cons, ih fun r h => hactive r (List.mem_cons_of_mem rule h), hentry, change?,
        slot_changed]
      by_cases h : carriesInto field rule = true
      · rw [if_pos (by exact h), List.filter_cons_of_pos h, List.map_cons, CarryAction.run_cons]
      · rw [if_neg (by exact h), List.filter_cons_of_neg h]
  exact key _ (fun rule h => (List.mem_filter.1 h).2) { entry := next }

/-- The rules leave the period and the computed values of the entry alone. -/
theorem frame_ofRules (plan : Plan) (period : Nat) (view : PeriodView) (outcome : Outcome)
    (next : PeriodEntry) :
    (ofRules plan period view outcome next).entry.period = next.period ∧
      (ofRules plan period view outcome next).entry.computed = next.computed := by
  refine List.foldlRecOn (motive := fun carrying : Carrying =>
    carrying.entry.period = next.period ∧
      carrying.entry.computed = next.computed) (activeRules plan) _ ⟨rfl, rfl⟩ ?_
  rintro carrying ⟨hperiod, hcomputed⟩ rule hmem
  obtain ⟨hentry, -⟩ := apply_eq plan.settings period view outcome carrying
    (List.mem_filter.1 hmem).2
  obtain ⟨hperiod', hcomputed'⟩ := frame_changed carrying.entry rule.destination
    (change? plan.settings view outcome carrying.entry rule)
  rw [hentry]
  exact ⟨hperiod'.trans hperiod, hcomputed'.trans hcomputed⟩

/-- Where no rule changes its destination, nothing changes and nothing is reported. -/
theorem ofRules_of_unchanged {plan : Plan} {period : Nat} {view : PeriodView} {outcome : Outcome}
    {next : PeriodEntry}
    (h : ∀ rule ∈ activeRules plan, change? plan.settings view outcome next rule = none) :
    (ofRules plan period view outcome next).entry = next ∧
      (ofRules plan period view outcome next).events = [] := by
  refine List.foldlRecOn
    (motive := fun carrying : Carrying => carrying.entry = next ∧ carrying.events = [])
    (activeRules plan) _ ⟨rfl, rfl⟩ ?_
  rintro carrying ⟨rfl, hevents⟩ rule hmem
  obtain ⟨hentry, hreported⟩ := apply_eq plan.settings period view outcome carrying
    (List.mem_filter.1 hmem).2
  rw [hentry, hreported, h rule hmem, hevents]
  exact ⟨rfl, rfl⟩

/-- Where each rule has a destination of its own, rules that change no slot report nothing. -/
theorem unchanged_of_slots {plan : Plan} {period : Nat} {view : PeriodView} {outcome : Outcome}
    {next : PeriodEntry}
    (hdistinct : (activeRules plan).Pairwise fun a b => a.destination.same b.destination = false)
    (hslot : ∀ field, (ofRules plan period view outcome next).entry.slot field = next.slot field) :
    ∀ rule ∈ activeRules plan, change? plan.settings view outcome next rule = none := by
  intro rule hmem
  -- the rule is the only one that carries into its destination
  have honly : (activeRules plan).filter (carriesInto rule.destination) = [rule] := by
    obtain ⟨before, after, hrules⟩ := List.append_of_mem hmem
    rw [hrules] at hdistinct ⊢
    obtain ⟨-, hafter, hbefore⟩ := List.pairwise_append.1 hdistinct
    have hnone : before.filter (carriesInto rule.destination) = [] := by
      rw [List.filter_eq_nil_iff]
      intro other hother
      simp [carriesInto, hbefore other hother rule List.mem_cons_self]
    have hnone' : after.filter (carriesInto rule.destination) = [] := by
      rw [List.filter_eq_nil_iff]
      intro other hother
      rw [carriesInto, FieldName.same_comm, (List.pairwise_cons.1 hafter).1 other hother]
      exact Bool.false_ne_true
    rw [List.filter_append, hnone, List.nil_append,
      List.filter_cons_of_pos (by exact FieldName.same_refl _), hnone']
  have hself := (slot_ofRules plan period view outcome next rule.destination).symm.trans
    (hslot rule.destination)
  rw [actionsFor, honly] at hself
  exact (CarryAction.apply_eq_self_iff (isTrimmed_action plan.settings view outcome rule)).1 hself

end PeriodSheet.Carrying
