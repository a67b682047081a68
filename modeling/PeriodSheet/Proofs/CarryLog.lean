import PeriodSheet.Proofs.CarryEvents
import PeriodSheet.Proofs.DerivedValues

/-!
# The log of carrying

The events of a computation, read as a log of what happened to the record.

* **`Record.replay`** lets the events of a log happen to a record, one after the other.  What a
  period is opened with afterwards depends on the events of that period alone (`opened_replay`).
* **`Carrying.entry_ofRules`**: what the rules make of an entry is what their events make of it, and
  each of these events changes what it finds.
* **`Carrying.inOrder_ofRules`**: the events come from some of the rules, in the order of the rules,
  and no rule reports twice.

So the log leaves nothing out, and nothing stands in it that did not happen
(`Computation.ofRecord_log`).
-/

namespace PeriodSheet

/-! ### Replaying a log -/

namespace PeriodEntry

/-- The entry after some events happened to it. -/
def replay (entry : PeriodEntry) (events : List CarryEvent) : PeriodEntry :=
  events.foldl (fun entry event => entry.receive event.field event.value) entry

/-- Whether each of some events changes the entry that it happens to. -/
def Changes (entry : PeriodEntry) : List CarryEvent → Prop
  | [] => True
  | event :: later =>
    entry.slot event.field ≠ .carrying event.value ∧
      (entry.receive event.field event.value).Changes later

theorem replay_append (entry : PeriodEntry) (earlier later : List CarryEvent) :
    entry.replay (earlier ++ later) = (entry.replay earlier).replay later :=
  List.foldl_append

theorem changes_append (entry : PeriodEntry) (earlier later : List CarryEvent) :
    entry.Changes (earlier ++ later) ↔
      entry.Changes earlier ∧ (entry.replay earlier).Changes later := by
  induction earlier generalizing entry with
  | nil => simp [Changes, replay]
  | cons event rest ih =>
    simp only [List.cons_append, Changes, ih, and_assoc, replay, List.foldl_cons]

@[simp]
theorem period_receive (entry : PeriodEntry) (field : FieldName) (value : Option String) :
    (entry.receive field value).period = entry.period := by
  cases value <;> rfl

end PeriodEntry

namespace Record

/-- What a record holds for a field in a period; nothing where it has no entry of the period. -/
def slot (record : Record) (period : Nat) (field : FieldName) : Slot :=
  (record.entry? period).elim ⟨none, false⟩ (·.slot field)

/-- The record after an event: in the target of the event its field holds the new value, marked as
carried, or neither a value nor a mark. -/
def receive (record : Record) (event : CarryEvent) : Record :=
  record.put ((record.opened event.target).receive event.field event.value)

/-- The record after some events happened to it. -/
def replay (record : Record) (events : List CarryEvent) : Record :=
  events.foldl receive record

/-- Whether each of some events changes the record that it happens to. -/
def Changes (record : Record) : List CarryEvent → Prop
  | [] => True
  | event :: later =>
    record.slot event.target event.field ≠ .carrying event.value ∧
      (record.receive event).Changes later

/-- A period without an entry holds what the blank one does that it is opened with. -/
theorem Sorted.slot_eq {record : Record} (hsorted : record.Sorted) (period : Nat)
    (field : FieldName) : record.slot period field = (record.opened period).slot field := by
  by_cases hhas : record.Has period
  · rw [slot, hsorted.entry?_of_has hhas, Option.elim_some]
  · rw [slot, entry?_of_not_has hhas, opened_of_not_has hhas]
    rfl

theorem Sorted.replay {record : Record} (hsorted : record.Sorted) (events : List CarryEvent) :
    (record.replay events).Sorted :=
  List.foldlRecOn (motive := Sorted) events receive hsorted fun _ h _ _ => h.put _

theorem opened_receive (record : Record) (event : CarryEvent) (period : Nat) :
    (record.receive event).opened period =
      if event.target = period then (record.opened period).receive event.field event.value
      else record.opened period := by
  rw [receive, opened_put, PeriodEntry.period_receive, period_opened]
  by_cases h : event.target = period
  · rw [if_pos h.symm, if_pos h, h]
  · rw [if_neg (Ne.symm h), if_neg h]

/-- What a period is opened with after a replay depends on the events of that period. -/
theorem opened_replay (record : Record) (events : List CarryEvent) (period : Nat) :
    (record.replay events).opened period =
      (record.opened period).replay (events.filter (·.target == period)) := by
  induction events generalizing record with
  | nil => rfl
  | cons event rest ih =>
    show ((record.receive event).replay rest).opened period = _
    rw [ih, opened_receive]
    by_cases h : event.target = period
    · rw [if_pos h, List.filter_cons_of_pos (by simpa using h)]
      rfl
    · rw [if_neg h, List.filter_cons_of_neg (by simpa using h)]

/-- Events change a record where those of each period change what the period is opened with. -/
theorem Sorted.changes {record : Record} (hsorted : record.Sorted) {events : List CarryEvent}
    (h : ∀ period, (record.opened period).Changes (events.filter (·.target == period))) :
    record.Changes events := by
  induction events generalizing record with
  | nil => trivial
  | cons event rest ih =>
    refine ⟨?_, ih (hsorted.put _) fun period => ?_⟩
    · have hself := h event.target
      rw [List.filter_cons_of_pos (by simp)] at hself
      rw [hsorted.slot_eq]
      exact hself.1
    · have hperiod := h period
      rw [opened_receive]
      by_cases heq : event.target = period
      · rw [List.filter_cons_of_pos (by simpa using heq)] at hperiod
        rw [if_pos heq]
        exact hperiod.2
      · rw [List.filter_cons_of_neg (by simpa using heq)] at hperiod
        rwa [if_neg heq]

end Record

/-! ### Events in order -/

/-- An event is of a period and a rule where it tells that the rule carried out of the period. -/
structure CarryEvent.IsOf (event : CarryEvent) (place : Nat × CarryRule) : Prop where
  source : event.source = place.1
  target : event.target = place.1 + 1
  rule : event.rule = place.2.id
  field : event.field = place.2.destination

/-- Events are in order where they come from some of the places, each from one of its own and in the
order of these. -/
def EventsInOrder : List CarryEvent → List (Nat × CarryRule) → Prop :=
  List.SublistForall₂ CarryEvent.IsOf

namespace EventsInOrder

theorem append {events events' : List CarryEvent} {places places' : List (Nat × CarryRule)}
    (h : EventsInOrder events places) (h' : EventsInOrder events' places') :
    EventsInOrder (events ++ events') (places ++ places') := by
  obtain ⟨reporting, hevents, hsub⟩ := List.sublistForall₂_iff.1 h
  obtain ⟨reporting', hevents', hsub'⟩ := List.sublistForall₂_iff.1 h'
  exact List.sublistForall₂_iff.2
    ⟨reporting ++ reporting', List.rel_append hevents hevents', hsub.append hsub'⟩

/-- Each event comes from one of the places. -/
theorem exists_place {events : List CarryEvent} {places : List (Nat × CarryRule)}
    (h : EventsInOrder events places) {event : CarryEvent} (hevent : event ∈ events) :
    ∃ place ∈ places, event.IsOf place := by
  induction h with
  | nil => cases hevent
  | cons hfirst _ ih =>
    rcases List.mem_cons.1 hevent with rfl | hevent
    · exact ⟨_, List.mem_cons_self, hfirst⟩
    · obtain ⟨place, hplace, hof⟩ := ih hevent
      exact ⟨place, List.mem_cons_of_mem _ hplace, hof⟩
  | cons_right _ ih =>
    obtain ⟨place, hplace, hof⟩ := ih hevent
    exact ⟨place, List.mem_cons_of_mem _ hplace, hof⟩

end EventsInOrder

/-! ### The events of a period -/

namespace Carrying

variable (plan : Plan) (period : Nat) (view : PeriodView) (outcome : Outcome) (next : PeriodEntry)

/-- A change of an entry is what its event makes of the entry. -/
theorem changed_eq_replay (entry : PeriodEntry) (rule : CarryRule) (target : Nat)
    (change : Option (Option String)) :
    changed entry rule.destination change = entry.replay (eventsOf rule period target change) := by
  cases change <;> rfl

/-- A rule that reports a change finds another value in its destination. -/
theorem changes_eventsOf (settings : Settings) (entry : PeriodEntry) (rule : CarryRule)
    (target : Nat) :
    entry.Changes
      (eventsOf rule period target (change? settings view outcome entry rule)) := by
  cases hchange : change? settings view outcome entry rule with
  | none => trivial
  | some value =>
    refine ⟨fun hself => ?_, trivial⟩
    -- an action that leaves the slot as it is reports no change
    have hsame : (action settings view outcome rule).apply settings.carryPolicy
        (entry.slot rule.destination) = entry.slot rule.destination := by
      rw [CarryAction.apply, show (action settings view outcome rule).change? _ _ = some value from
        hchange]
      exact hself.symm
    have hnone := (CarryAction.apply_eq_self_iff
      (isTrimmed_action settings view outcome rule)).1 hsame
    rw [change?, hnone] at hchange
    cases hchange

/-- **What the rules make of an entry is what their events make of it**, and each of the events
changes what it finds. -/
theorem entry_ofRules :
    (ofRules plan period view outcome next).entry =
        next.replay (ofRules plan period view outcome next).events ∧
      next.Changes (ofRules plan period view outcome next).events := by
  have hstart : next = next.replay [] ∧ next.Changes [] := ⟨rfl, trivial⟩
  refine List.foldlRecOn
    (motive := fun carrying : Carrying =>
      carrying.entry = next.replay carrying.events ∧ next.Changes carrying.events)
    (activeRules plan) _ hstart ?_
  rintro carrying ⟨hentry, hchanges⟩ rule hrule
  have happly := apply_eq plan.settings period view outcome carrying (List.mem_filter.1 hrule).2
  rw [happly.1, happly.2, PeriodEntry.replay_append, PeriodEntry.changes_append, ← hentry]
  exact ⟨changed_eq_replay period carrying.entry rule _ _, hchanges,
    changes_eventsOf period view outcome plan.settings carrying.entry rule _⟩

/-- The events that some rules add come from some of these rules, in their order, by induction on
the rules. -/
theorem inOrder_foldl {rules : List CarryRule} (hactive : ∀ rule ∈ rules, rule.isActive = true)
    {carrying : Carrying} (hperiod : carrying.entry.period = period + 1) :
    ∃ events, (rules.foldl (apply plan.settings period view outcome) carrying).events =
        carrying.events ++ events ∧
      EventsInOrder events (rules.map fun rule => (period, rule)) := by
  induction rules generalizing carrying with
  | nil => exact ⟨[], (List.append_nil _).symm, .nil⟩
  | cons rule rest ih =>
    have happly := apply_eq plan.settings period view outcome carrying
      (hactive rule List.mem_cons_self)
    have hframe : (apply plan.settings period view outcome carrying rule).entry.period =
        period + 1 := by
      rw [happly.1, (frame_changed carrying.entry rule.destination _).1, hperiod]
    obtain ⟨events, hevents, horder⟩ :=
      ih (fun other h => hactive other (List.mem_cons_of_mem rule h)) hframe
    rw [List.foldl_cons, hevents, happly.2, List.append_assoc]
    refine ⟨_, rfl, ?_⟩
    -- the rule reports at most one event, which stands before those of the others
    cases change? plan.settings view outcome carrying.entry rule with
    | none => exact .cons_right horder
    | some value => exact .cons ⟨rfl, hperiod, rfl, rfl⟩ horder

/-- **The events come from some of the rules, in their order.** -/
theorem inOrder_ofRules (hnext : next.period = period + 1) :
    EventsInOrder (ofRules plan period view outcome next).events
      ((activeRules plan).map fun rule => (period, rule)) := by
  have hactive : ∀ rule ∈ activeRules plan, rule.isActive = true :=
    fun rule hmem => (List.mem_filter.1 hmem).2
  have hstart : ({ entry := next } : Carrying).entry.period = period + 1 := hnext
  obtain ⟨events, hevents, horder⟩ := inOrder_foldl plan period view outcome hactive hstart
  rw [List.nil_append] at hevents
  exact hevents ▸ horder

end Carrying

/-- The events of carrying out of an entry come from some of the rules, in their order. -/
theorem PeriodEntry.inOrder_carryEvents (plan : Plan) {entry next : PeriodEntry}
    (hnext : next.period = entry.period + 1) :
    EventsInOrder (entry.carryEvents plan next)
      ((Carrying.activeRules plan).map fun rule => (entry.period, rule)) := by
  unfold carryEvents
  split
  · exact Carrying.inOrder_ofRules plan entry.period _ _ next hnext
  · exact .nil

/-! ### The events of a computation -/

namespace Computation

variable {plan : Plan} {record : Record} {range : PeriodRange}

/-- What the events make of a period is what the computation makes of it. -/
theorem slot_replay_ofRecord (hsorted : record.Sorted) (period : Nat) (field : FieldName) :
    ((record.replay (ofRecord plan record range).carried).opened period).slot field =
      ((ofRecord plan record range).record.opened period).slot field := by
  have hran := Computing.ran_ofRecord plan hsorted range
  rw [Record.opened_replay]
  by_cases hinto : ∃ source ∈ range.periods plan.activity.periodCount,
      source < plan.activity.periodCount ∧ period = source + 1
  · obtain ⟨source, hsource, hlast, rfl⟩ := hinto
    have hbounds := List.mem_range'_1.1 hsource
    rw [filter_carried_ofRecord hsorted hsource hlast, PeriodEntry.carryInto,
      ← (Carrying.entry_ofRules _ _ _ _ _).1]
    exact (hran.carriedInto source hbounds.1 hbounds.2 hlast field).symm
  · -- nothing is carried into the period, and nothing is reported of it
    have hnone : (ofRecord plan record range).carried.filter (·.target == period) = [] := by
      rw [List.filter_eq_nil_iff]
      intro event hevent htarget
      obtain ⟨hsource, hlast, hnext, -⟩ := mem_carried_ofRecord hsorted hevent
      exact hinto ⟨event.source, hsource, hlast, (eq_of_beq htarget).symm.trans hnext⟩
    rw [hnone]
    refine (hran.kept period (fun hcarried => hinto ⟨period - 1, ?_, ?_, ?_⟩) field).symm
    · exact List.mem_range'_1.2 (by show _ ∧ _ < _ + Computing.span plan range; omega)
    · omega
    · omega

/-- Each event of a computation changes what it finds. -/
theorem changes_ofRecord (hsorted : record.Sorted) :
    record.Changes (ofRecord plan record range).carried := by
  refine hsorted.changes fun period => ?_
  by_cases hnone : (ofRecord plan record range).carried.filter (·.target == period) = []
  · rw [hnone]
    trivial
  · -- the events into a period are those of carrying out of the one before it
    obtain ⟨event, hmem⟩ := List.exists_mem_of_ne_nil _ hnone
    have htarget := eq_of_beq (List.mem_filter.1 hmem).2
    obtain ⟨hsource, hlast, hnext, -⟩ :=
      mem_carried_ofRecord hsorted (List.mem_filter.1 hmem).1
    obtain rfl : event.source + 1 = period := hnext ▸ htarget
    rw [filter_carried_ofRecord hsorted hsource hlast]
    exact (Carrying.entry_ofRules _ _ _ _ _).2

/-- The periods of a range with the active rules, in the order in which the rules are applied. -/
def carryPlaces (plan : Plan) (range : PeriodRange) : List (Nat × CarryRule) :=
  (range.periods plan.activity.periodCount).flatMap fun period =>
    (Carrying.activeRules plan).map fun rule => (period, rule)

/-- The events come from some of the periods and rules, in their order, by induction on the
periods. -/
theorem inOrder_ofRecord (hsorted : record.Sorted) :
    EventsInOrder (ofRecord plan record range).carried (carryPlaces plan range) := by
  rw [carried_ofRecord plan hsorted range, carryPlaces]
  generalize (ofRecord plan record range).record = computed
  induction range.periods plan.activity.periodCount with
  | nil => exact .nil
  | cons period rest ih =>
    have hperiod := computed.period_opened period
    have hnext : (record.opened (period + 1)).period = (computed.opened period).period + 1 := by
      rw [Record.period_opened, hperiod]
    have hfirst := PeriodEntry.inOrder_carryEvents plan hnext
    rw [hperiod] at hfirst
    rw [List.flatMap_cons, List.flatMap_cons]
    exact hfirst.append ih

/-- **The carry events are a complete and exact log.**

* Each event tells of carrying out of a period of the range into the next one, by an active rule
  with that id and that destination.
* The events stand in the order of the periods and, for each period, in the order of the rules; no
  rule reports twice for one period.
* Each event, when it happens to the record that the events before it have left, changes it.
* All events together make of the record, in every period and for every field, what the computation
  makes of it: the raw text and the mark. -/
theorem ofRecord_log (activity : Activity) (settings : Settings) (record : Record)
    (hsorted : record.Sorted) (range : PeriodRange) :
    let plan := Plan.ofActivity settings activity
    let computation := ofRecord plan record range
    let log := computation.carried
    (∀ event ∈ log, event.source ∈ range.periods activity.periodCount ∧
      event.target = event.source + 1 ∧
      ∃ rule ∈ activity.carryRules, rule.isActive = true ∧ event.rule = rule.id ∧
        event.field = rule.destination) ∧
    EventsInOrder log (carryPlaces plan range) ∧
    record.Changes log ∧
    ∀ period field,
      (record.replay log).slot period field = computation.record.slot period field := by
  intro plan computation log
  have horder : EventsInOrder log (carryPlaces plan range) := inOrder_ofRecord hsorted
  refine ⟨fun event hevent => ?_, horder, changes_ofRecord hsorted, fun period field => ?_⟩
  · obtain ⟨place, hplace, hof⟩ := horder.exists_place hevent
    obtain ⟨period, hperiod, hplace⟩ := List.mem_flatMap.1 hplace
    obtain ⟨rule, hrule, rfl⟩ := List.mem_map.1 hplace
    obtain ⟨hmem, hactive⟩ := List.mem_filter.1 hrule
    exact ⟨hof.source ▸ hperiod, by rw [hof.target, hof.source], rule, hmem, hactive, hof.rule,
      hof.field⟩
  · rw [(hsorted.replay log).slot_eq, (sorted_ofRecord plan hsorted range).slot_eq]
    exact slot_replay_ofRecord hsorted period field

/-- A rule that does not apply takes back what an earlier run carried, and the next rule writes the
credit in its place.  The log tells of both, in this order. -/
theorem ofRecord_log_credits :
    let debtRule : CarryRule :=
      { id := 3, origin := Credits.credit, destination := Credits.previous,
        condition := .ifNegative }
    let activity := Credits.activity [debtRule, Credits.creditRule]
    let entered := Credits.carried "250"
    let computation := ofRecord (.ofActivity {} activity) entered .all
    entered.Sorted ∧
      computation.carried = [⟨3, 1, 2, Credits.previous, none⟩,
        ⟨1, 1, 2, Credits.previous, some "300"⟩] ∧
      entered.Changes computation.carried ∧
      computation.record.slot 2 Credits.previous = ⟨some "300", true⟩ := by
  intro debtRule activity entered computation
  have hsorted : entered.Sorted := by decide
  have hcarried : computation.carried = [⟨3, 1, 2, Credits.previous, none⟩,
      ⟨1, 1, 2, Credits.previous, some "300"⟩] := by
    rw [show computation = ofRecord (Credits.plan _) entered .all from
      congrArg (ofRecord · entered .all) (Credits.plan_eq _)]
    decide +kernel
  obtain ⟨-, -, hchanges, hreplay⟩ := ofRecord_log activity {} entered hsorted .all
  refine ⟨hsorted, hcarried, hchanges, ?_⟩
  rw [← hreplay, show (ofRecord (.ofActivity {} activity) entered .all).carried = _ from hcarried]
  decide +kernel

end Computation

end PeriodSheet
