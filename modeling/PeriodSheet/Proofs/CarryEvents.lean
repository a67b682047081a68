import PeriodSheet.Proofs.Run

/-!
# The events of carrying

Each event says what one rule made of its destination (`exists_rule_of_mem_events`), and a field
that the rules changed holds what the last of its events says (`slot_of_getLast?`).  Of the events
of a computation, those of one target come from the period before it (`filter_carried_ofRecord`), so
that the last one for a field still tells what the computed record holds
(`Computation.slot_of_getLast?_carried`).
-/

namespace PeriodSheet

namespace Carrying

theorem value?_action_eq_some {settings : Settings} {view : PeriodView} {outcome : Outcome}
    {rule : CarryRule} {text : String}
    (h : (action settings view outcome rule).value? = some (some text)) :
    ∃ value, CarryOrigin.ofName view outcome rule.origin = .number value ∧
      text = settings.numberFormat.formatPlain value := by
  unfold action at h
  cases horigin : CarryOrigin.ofName view outcome rule.origin with
  | failed error =>
    rw [horigin] at h
    cases h
  | number value =>
    rw [horigin] at h
    dsimp only at h
    split at h
    · exact ⟨value, rfl, (Option.some.inj (Option.some.inj h)).symm⟩
    · cases h
  | text raw =>
    rw [horigin] at h
    cases h
  | missing =>
    rw [horigin] at h
    cases h

variable {plan : Plan} {period : Nat} {view : PeriodView} {outcome : Outcome} {next : PeriodEntry}

/-- An event reports that a rule gave its destination the value that the rule stands for. -/
structure Reports (settings : Settings) (view : PeriodView) (outcome : Outcome) (event : CarryEvent)
    (rule : CarryRule) : Prop where
  id : event.rule = rule.id
  field : event.field = rule.destination
  value : (action settings view outcome rule).value? = some event.value

/-- An event reports what one of the active rules did. -/
theorem exists_rule_of_mem_events {event : CarryEvent}
    (h : event ∈ (ofRules plan period view outcome next).events) :
    event.source = period ∧ event.target = next.period ∧
      ∃ rule ∈ activeRules plan, Reports plan.settings view outcome event rule := by
  -- the entry keeps its period, which each event names as its target
  refine (List.foldlRecOn (motive := fun carrying : Carrying =>
    carrying.entry.period = next.period ∧ ∀ event ∈ carrying.events,
      event.source = period ∧ event.target = next.period ∧
        ∃ rule ∈ activeRules plan, Reports plan.settings view outcome event rule)
    (activeRules plan) (apply plan.settings period view outcome)
    ⟨rfl, fun event hnone => by cases hnone⟩ ?_).2 event h
  rintro carrying ⟨hperiod, hevents⟩ rule hrule
  obtain ⟨hentry, hreported⟩ := apply_eq plan.settings period view outcome carrying
    (List.mem_filter.1 hrule).2
  rw [hentry, hreported]
  refine ⟨(frame_changed carrying.entry rule.destination _).1.trans hperiod, fun event hevent => ?_⟩
  rcases List.mem_append.1 hevent with hevent | hevent
  · exact hevents event hevent
  · cases hchange : change? plan.settings view outcome carrying.entry rule with
    | none =>
      rw [hchange] at hevent
      cases hevent
    | some value =>
      rw [hchange] at hevent
      obtain rfl := List.mem_singleton.1 hevent
      exact ⟨rfl, hperiod, rule, hrule, rfl, rfl, CarryAction.value?_of_change? hchange⟩

/-- **A field holds what its last event says.** -/
theorem slot_of_getLast? {field : FieldName} {event : CarryEvent}
    (h : ((ofRules plan period view outcome next).events.filter (·.field.same field)).getLast? =
      some event) :
    (ofRules plan period view outcome next).entry.slot field = .carrying event.value := by
  revert event
  refine List.foldlRecOn (motive := fun carrying : Carrying => ∀ {event : CarryEvent},
    (carrying.events.filter (·.field.same field)).getLast? = some event →
      carrying.entry.slot field = .carrying event.value)
    (activeRules plan) _ (fun hnone => by cases hnone) ?_
  intro carrying ih rule hrule event hlast
  obtain ⟨hentry, hreported⟩ := apply_eq plan.settings period view outcome carrying
    (List.mem_filter.1 hrule).2
  rw [hreported, List.filter_append] at hlast
  rw [hentry]
  cases hchange : change? plan.settings view outcome carrying.entry rule with
  | none =>
    rw [hchange, eventsOf, Option.elim_none, List.filter_nil, List.append_nil] at hlast
    exact ih hlast
  | some value =>
    rw [hchange, eventsOf, Option.elim_some] at hlast
    rw [changed, Option.elim_some, PeriodEntry.slot_receive]
    -- an event of another field is not the last one, and its rule leaves the slot alone
    by_cases hsame : rule.destination.same field = true
    · rw [List.filter_cons_of_pos (by exact hsame), List.filter_nil, List.getLast?_concat] at hlast
      rw [if_pos hsame, ← Option.some.inj hlast]
    · rw [List.filter_cons_of_neg (by exact hsame), List.filter_nil, List.append_nil] at hlast
      rw [if_neg hsame]
      exact ih hlast

end Carrying

/-- What is carried out of an entry is reported with its period, and with that of the next one. -/
theorem PeriodEntry.mem_carryEvents {plan : Plan} {entry next : PeriodEntry} {event : CarryEvent}
    (h : event ∈ entry.carryEvents plan next) :
    entry.period < plan.activity.periodCount ∧ event.source = entry.period ∧
      event.target = next.period ∧ event ∈ (entry.carryInto plan next).events := by
  unfold carryEvents at h
  split at h
  · next hlast =>
    obtain ⟨hsource, htarget, -⟩ := Carrying.exists_rule_of_mem_events h
    exact ⟨hlast, hsource, htarget, h⟩
  · cases h

/-- Where the wanted events are those of one period, they are found among those of several. -/
theorem filter_flatMap_of_unique {periods : List Nat} {period : Nat} (hdistinct : periods.Nodup)
    (hperiod : period ∈ periods) {events : Nat → List CarryEvent} {wanted : CarryEvent → Bool}
    (hwanted : ∀ other, ∀ event ∈ events other, wanted event = true ↔ other = period) :
    (periods.flatMap events).filter wanted = events period := by
  have hnone : ∀ others : List Nat, period ∉ others →
      (others.flatMap events).filter wanted = [] := by
    intro others hnot
    rw [List.filter_eq_nil_iff]
    intro event hevent hlike
    obtain ⟨other, hother, hevent⟩ := List.mem_flatMap.1 hevent
    exact hnot ((hwanted other event hevent).1 hlike ▸ hother)
  have hall : (events period).filter wanted = events period :=
    List.filter_eq_self.2 fun event hevent => (hwanted period event hevent).2 rfl
  obtain ⟨before, after, rfl⟩ := List.append_of_mem hperiod
  obtain ⟨-, hafter, hbefore⟩ := List.nodup_append.1 hdistinct
  rw [List.flatMap_append, List.flatMap_cons, List.filter_append, List.filter_append,
    hnone before fun hmem => hbefore period hmem period List.mem_cons_self rfl, hall,
    hnone after (List.nodup_cons.1 hafter).1, List.nil_append, List.append_nil]

namespace Computation

variable {plan : Plan} {record : Record} {range : PeriodRange}

/-- An event of a computation is one of carrying out of its source into its target. -/
theorem mem_carried_ofRecord (hsorted : record.Sorted) {event : CarryEvent}
    (h : event ∈ (ofRecord plan record range).carried) :
    event.source ∈ range.periods plan.activity.periodCount ∧
      event.source < plan.activity.periodCount ∧ event.target = event.source + 1 ∧
      event ∈ (((ofRecord plan record range).record.opened event.source).carryInto plan
        (record.opened event.target)).events := by
  rw [carried_ofRecord plan hsorted range] at h
  obtain ⟨period, hperiod, hevent⟩ := List.mem_flatMap.1 h
  obtain ⟨hlast, hsource, htarget, hevent⟩ := PeriodEntry.mem_carryEvents hevent
  rw [Record.period_opened] at hlast hsource htarget
  subst hsource
  rw [htarget]
  exact ⟨hperiod, hlast, rfl, hevent⟩

/-- The events into a period are those of the period before it. -/
theorem filter_carried_ofRecord (hsorted : record.Sorted) {period : Nat}
    (hperiod : period ∈ range.periods plan.activity.periodCount)
    (hlast : period < plan.activity.periodCount) :
    (ofRecord plan record range).carried.filter (·.target == period + 1) =
      (((ofRecord plan record range).record.opened period).carryInto plan
        (record.opened (period + 1))).events := by
  have hdistinct : (range.periods plan.activity.periodCount).Nodup := List.nodup_range'
  rw [carried_ofRecord plan hsorted range, filter_flatMap_of_unique hdistinct hperiod,
    PeriodEntry.carryEvents, if_pos (by rwa [Record.period_opened])]
  intro source event hevent
  rw [(PeriodEntry.mem_carryEvents hevent).2.2.1, Record.period_opened, beq_iff_eq,
    Nat.add_right_cancel_iff]

/-- **The computed record holds what the last event for a field says.** -/
theorem slot_of_getLast?_carried (hsorted : record.Sorted) {event : CarryEvent}
    (h : ((ofRecord plan record range).carried.filter fun other =>
      other.target == event.target && other.field.same event.field).getLast? = some event) :
    ((ofRecord plan record range).record.opened event.target).slot event.field =
      .carrying event.value := by
  obtain ⟨hmem, -⟩ := List.mem_filter.1 (List.mem_of_getLast? h)
  obtain ⟨hsource, hlast, htarget, -⟩ := mem_carried_ofRecord hsorted hmem
  rw [← List.filter_filter, List.filter_comm, htarget,
    filter_carried_ofRecord hsorted hsource hlast] at h
  obtain ⟨hge, hlt⟩ := List.mem_range'_1.1 hsource
  have hslot := (Computing.ran_ofRecord plan hsorted range).carriedInto event.source hge hlt hlast
    event.field
  rw [htarget]
  exact hslot.trans (Carrying.slot_of_getLast? h)

end Computation

end PeriodSheet
