import PeriodSheet.Proofs.DerivedValues
import PeriodSheet.Proofs.Frame

/-!
# The entry that a change opens

A period shows the first entry of the period, wherever that stands; a change of the period opens
the first entry that is not of an earlier one.  These are one entry, which the change replaces,
where the period's first entry is *in place*: no entry of a later period stands before it.  In
sorted records all of them are (`Sorted.inPlace`).

* **`opened_eq_iff`**: out of place, a change opens a blank entry instead and adds it.
* **`entry?_put`**: what was put is what the period shows from then on, so that an added entry
  hides the one that the period has shown before.
* **`step_cases`** says what a step does to any record, sorted or not.  A run opens the entry that
  it finds the first time it comes to a period (`showsOpened_foldl`), and no rule takes away what
  stands in the other fields of that entry (`keepsField_foldl`).

Together they tell which raw values a computed record still shows
(`Computation.ofRecord_shows_iff`).
-/

namespace PeriodSheet

namespace Record

/-- Whether only entries of earlier periods stand before the first entry of a period. -/
def InPlace (record : Record) (period : Nat) : Prop :=
  ∀ earlier ∈ record.entries.takeWhile (·.period != period), earlier.period < period

instance (record : Record) (period : Nat) : Decidable (record.InPlace period) :=
  inferInstanceAs (Decidable (∀ earlier ∈ _, _))

/-! ### What a period shows, and what a change of it opens -/

/-- A period shows its first entry. -/
theorem exists_first_of_entry? {record : Record} {period : Nat} {entry : PeriodEntry}
    (h : record.entry? period = some entry) :
    ∃ before after, record.entries = before ++ entry :: after ∧
      (∀ earlier ∈ before, earlier.period ≠ period) ∧ entry.period = period := by
  obtain ⟨hperiod, before, after, hentries, hbefore⟩ := List.find?_eq_some_iff_append.1 h
  exact ⟨before, after, hentries, fun earlier hmem => by simpa using hbefore earlier hmem,
    eq_of_beq hperiod⟩

theorem inPlace_iff_of_append {record : Record} {period : Nat} {entry : PeriodEntry}
    {before after : List PeriodEntry} (hentries : record.entries = before ++ entry :: after)
    (hbefore : ∀ earlier ∈ before, earlier.period ≠ period) (hperiod : entry.period = period) :
    record.InPlace period ↔ ∀ earlier ∈ before, earlier.period < period := by
  have hfirst : record.entries.takeWhile (·.period != period) = before := by
    rw [hentries,
      List.takeWhile_append_of_pos fun earlier hmem => bne_iff_ne.2 (hbefore earlier hmem),
      List.takeWhile_cons_of_neg (by simp [hperiod]), List.append_nil]
  rw [InPlace, hfirst]

/-- In sorted records every period that has an entry has it in place. -/
theorem Sorted.inPlace {record : Record} (hsorted : record.Sorted) {period : Nat}
    (h : record.Has period) : record.InPlace period := by
  obtain ⟨before, entry, after, hentries, hbefore, hperiod⟩ := hsorted.exists_first h
  exact (inPlace_iff_of_append hentries (fun earlier hmem => Nat.ne_of_lt (hbefore earlier hmem))
    hperiod).2 hbefore

/-- Behind an entry of a later period a change finds nothing: it opens a blank entry and adds it. -/
theorem openEntry_append_of_later {period : Nat} {before : List PeriodEntry}
    (hne : ∀ earlier ∈ before, earlier.period ≠ period)
    (hlater : ∃ later ∈ before, period < later.period) (rest : List PeriodEntry) :
    openEntry period (before ++ rest) = .blank period ∧
      ∀ changed : PeriodEntry, changed.period = period →
        (putEntry changed (before ++ rest)).length = (before ++ rest).length + 1 := by
  induction before with
  | nil => obtain ⟨_, hmem, _⟩ := hlater; cases hmem
  | cons head before ih =>
    obtain ⟨hhead, hbefore⟩ := List.forall_mem_cons.1 hne
    rw [List.cons_append]
    by_cases hlt : head.period < period
    · -- the later entry stands behind the head
      have hrest : ∃ later ∈ before, period < later.period := by
        obtain ⟨later, hmem, hlater⟩ := hlater
        rcases List.mem_cons.1 hmem with rfl | hmem
        · exact absurd hlater (Nat.not_lt_of_gt hlt)
        · exact ⟨later, hmem, hlater⟩
      obtain ⟨hopened, hlength⟩ := ih hbefore hrest
      rw [openEntry, if_pos hlt]
      refine ⟨hopened, fun changed hchanged => ?_⟩
      rw [putEntry, if_pos (hchanged.symm ▸ hlt), List.length_cons, hlength changed hchanged,
        List.length_cons]
    · rw [openEntry, if_neg hlt, if_neg hhead]
      refine ⟨rfl, fun changed hchanged => ?_⟩
      subst hchanged
      rw [putEntry, if_neg hlt, if_neg hhead, List.length_cons]

section Shown

variable {record : Record} {period : Nat} {entry : PeriodEntry}

theorem InPlace.opened_eq (h : record.InPlace period) (hentry : record.entry? period = some entry) :
    record.opened period = entry ∧ ∀ changed : PeriodEntry, changed.period = period →
      (record.put changed).entries.length = record.entries.length := by
  obtain ⟨before, after, hentries, hne, hperiod⟩ := exists_first_of_entry? hentry
  have hbefore := (inPlace_iff_of_append hentries hne hperiod).1 h
  constructor
  · rw [opened, hentries, openEntry_append hbefore, openEntry, if_neg (by omega), if_pos hperiod]
  · rintro changed rfl
    rw [put, hentries, putEntry_append hbefore, putEntry, if_neg (by omega), if_pos hperiod]
    simp

theorem opened_of_not_inPlace (h : ¬ record.InPlace period)
    (hentry : record.entry? period = some entry) :
    record.opened period = .blank period ∧ ∀ changed : PeriodEntry, changed.period = period →
      (record.put changed).entries.length = record.entries.length + 1 := by
  obtain ⟨before, after, hentries, hne, hperiod⟩ := exists_first_of_entry? hentry
  have hlater : ∃ later ∈ before, period < later.period := by
    rw [inPlace_iff_of_append hentries hne hperiod] at h
    push Not at h
    obtain ⟨later, hmem, hle⟩ := h
    have := hne later hmem
    exact ⟨later, hmem, by omega⟩
  unfold opened put
  rw [hentries]
  exact openEntry_append_of_later hne hlater (entry :: after)

/-- **A change opens the entry that the period shows, and adds none, where that is in place.** -/
theorem opened_eq_iff (hentry : record.entry? period = some entry) :
    (record.opened period = entry ∧ ∀ changed : PeriodEntry, changed.period = period →
      (record.put changed).entries.length = record.entries.length) ↔ record.InPlace period := by
  refine ⟨fun ⟨_, hlength⟩ => ?_, fun h => h.opened_eq hentry⟩
  by_contra h
  have hadded := (opened_of_not_inPlace h hentry).2 (.blank period) rfl
  rw [hlength (.blank period) rfl] at hadded
  omega

end Shown

/-- What was put is found in front of all later periods. -/
theorem find?_putEntry (changed : PeriodEntry) (entries : List PeriodEntry) :
    (putEntry changed entries).find? (·.period == changed.period) = some changed := by
  induction entries with
  | nil => simp [putEntry]
  | cons head rest ih =>
    unfold putEntry
    split
    · rename_i hlt
      rwa [List.find?_cons_of_neg (by simp [Nat.ne_of_lt hlt])]
    · split <;> exact List.find?_cons_of_pos (beq_self_eq_true _)

theorem find?_putEntry_of_ne {changed : PeriodEntry} {period : Nat} (h : changed.period ≠ period)
    (entries : List PeriodEntry) :
    (putEntry changed entries).find? (·.period == period) =
      entries.find? (·.period == period) := by
  have hchanged : (changed.period == period) = false := beq_false_of_ne h
  induction entries with
  | nil => simp only [putEntry, List.find?_cons, hchanged]
  | cons head rest ih =>
    unfold putEntry
    split
    · simp only [List.find?_cons, ih]
    · split
      · -- the entry that is replaced is no more of the period than the change is
        rename_i heq
        simp only [List.find?_cons, heq, hchanged]
      · simp only [List.find?_cons, hchanged]

/-- What was put is what its period shows; other periods show what they have shown. -/
theorem entry?_put (record : Record) (changed : PeriodEntry) (period : Nat) :
    Record.entry? (record.put changed) period =
      if period = changed.period then some changed else record.entry? period := by
  split
  · rename_i h
    rw [h]
    exact find?_putEntry changed record.entries
  · rename_i h
    exact find?_putEntry_of_ne (Ne.symm h) record.entries

/-- Whether a period shows the entry that a change of it opens. -/
def ShowsOpened (record : Record) (period : Nat) : Prop :=
  record.entry? period = some (record.opened period)

theorem showsOpened_put {record : Record} {changed : PeriodEntry} {period : Nat}
    (h : period ≠ changed.period → record.ShowsOpened period) :
    (record.put changed).ShowsOpened period := by
  rw [ShowsOpened, entry?_put, opened_put]
  split
  · rfl
  · rename_i hne
    exact h hne

end Record

/-! ### A run over any record -/

namespace Computing

variable {plan : Plan}

/-- Whether computing a period changes the entry of another one: that of the period itself, or that
of the next one where there is one. -/
def Reaches (plan : Plan) (source period : Nat) : Prop :=
  period = source ∨ period = source + 1 ∧ source < plan.activity.periodCount

/-- A step changes the entry that its period is opened with, in its computed values alone, and the
one that the next period is opened with, where there is one, in the destinations of rules alone. -/
theorem step_cases (plan : Plan) (computing : Computing) (source : Nat) :
    ∃ entry : PeriodEntry, entry.period = source ∧
      (∀ field, PeriodEntry.KeepsField field (computing.record.opened source) entry) ∧
      ((source < plan.activity.periodCount ∧ ∃ next : PeriodEntry, next.period = source + 1 ∧
          (∀ field, (∀ rule ∈ Carrying.activeRules plan, rule.destination.same field = false) →
            PeriodEntry.KeepsField field (computing.record.opened (source + 1)) next) ∧
          (computing.step plan source).record = (computing.record.put entry).put next) ∨
        (plan.activity.periodCount ≤ source ∧
          (computing.step plan source).record = computing.record.put entry)) := by
  let view := PeriodView.ofFields plan.fields (computing.record.entry? source)
  let outcome := Outcome.ofView plan source view
  let entry := { computing.record.opened source with
    computed := outcome.texts plan.settings.numberFormat }
  have hperiod : entry.period = source := computing.record.period_opened source
  refine ⟨entry, hperiod, fun field => ⟨rfl, rfl⟩, ?_⟩
  by_cases hlast : source < plan.activity.periodCount
  · -- the computed entry does not stand in the way of the next one
    have hnext : (computing.record.put entry).opened (source + 1) =
        computing.record.opened (source + 1) := by
      rw [Record.opened_put, hperiod, if_neg (Nat.succ_ne_self source)]
    let carrying := Carrying.ofRules plan source view outcome
      ((computing.record.put entry).opened (source + 1))
    refine .inl ⟨hlast, carrying.entry, ?_, fun field hfree => ?_, ?_⟩
    · exact (Carrying.frame_ofRules plan _ _ _ _).1.trans (Record.period_opened _ _)
    · rw [← hnext]
      exact Carrying.keepsField_ofRules plan source view outcome _ hfree
    · unfold step carryOver
      dsimp only
      rw [if_pos hlast]
  · refine .inr ⟨Nat.not_lt.1 hlast, ?_⟩
    unfold step carryOver
    dsimp only
    rw [if_neg hlast]
    split <;> rfl

/-- After a step, a period that it reaches shows what it is opened with. -/
theorem showsOpened_step {computing : Computing} {source period : Nat}
    (h : Reaches plan source period ∨ computing.record.ShowsOpened period) :
    (computing.step plan source).record.ShowsOpened period := by
  obtain ⟨entry, hentry, -, ⟨-, next, hnext, -, hrecord⟩ | ⟨hlast, hrecord⟩⟩ :=
    step_cases plan computing source
  · rw [hrecord]
    refine Record.showsOpened_put fun hne => Record.showsOpened_put fun hne' => ?_
    refine h.resolve_left ?_
    rintro (heq | ⟨heq, -⟩)
    · exact hne' (heq.trans hentry.symm)
    · exact hne (heq.trans hnext.symm)
  · rw [hrecord]
    refine Record.showsOpened_put fun hne => h.resolve_left ?_
    rintro (heq | ⟨-, hlt⟩)
    · exact hne (heq.trans hentry.symm)
    · exact Nat.not_lt.2 hlast hlt

/-- A step changes what a period shows only where it reaches the period. -/
theorem entry?_step {source period : Nat} (h : ¬ Reaches plan source period)
    (computing : Computing) :
    Record.entry? (computing.step plan source).record period = computing.record.entry? period := by
  obtain ⟨hself, hnext⟩ := not_or.1 h
  obtain ⟨entry, rfl, -, ⟨hlt, next, hperiod, -, hrecord⟩ | ⟨-, hrecord⟩⟩ :=
    step_cases plan computing source
  · rw [hrecord, Record.entry?_put, hperiod, if_neg fun heq => hnext ⟨heq, hlt⟩, Record.entry?_put,
      if_neg hself]
  · rw [hrecord, Record.entry?_put, if_neg hself]

/-- A step takes nothing away from the entry that a period is opened with, except at the
destinations of rules. -/
theorem keepsField_step {field : FieldName}
    (h : ∀ rule ∈ Carrying.activeRules plan, rule.destination.same field = false)
    (computing : Computing) (source period : Nat) :
    PeriodEntry.KeepsField field (computing.record.opened period)
      ((computing.step plan source).record.opened period) := by
  obtain ⟨entry, rfl, hentry, ⟨-, next, hnext, hnextKeeps, hrecord⟩ | ⟨-, hrecord⟩⟩ :=
    step_cases plan computing source
  · rw [hrecord, Record.opened_put, Record.opened_put, hnext]
    split
    · rename_i heq
      exact heq ▸ hnextKeeps field h
    · split
      · rename_i heq
        exact heq ▸ hentry field
      · exact .refl field _
  · rw [hrecord, Record.opened_put]
    split
    · rename_i heq
      exact heq ▸ hentry field
    · exact .refl field _

/-! #### Runs -/

theorem showsOpened_foldl {periods : List Nat} {computing : Computing} {period : Nat}
    (h : (∃ source ∈ periods, Reaches plan source period) ∨
      computing.record.ShowsOpened period) :
    (periods.foldl (step plan) computing).record.ShowsOpened period := by
  induction periods generalizing computing with
  | nil =>
    refine h.resolve_left ?_
    rintro ⟨_, hmem, _⟩
    cases hmem
  | cons source rest ih =>
    refine ih ?_
    rcases h with ⟨reaching, hmem, hreaches⟩ | hshows
    · rcases List.mem_cons.1 hmem with rfl | hmem
      · exact .inr (showsOpened_step (.inl hreaches))
      · exact .inl ⟨reaching, hmem, hreaches⟩
    · exact .inr (showsOpened_step (.inr hshows))

theorem entry?_foldl {periods : List Nat} {period : Nat}
    (h : ∀ source ∈ periods, ¬ Reaches plan source period) (computing : Computing) :
    Record.entry? (periods.foldl (step plan) computing).record period =
      computing.record.entry? period := by
  induction periods generalizing computing with
  | nil => rfl
  | cons source rest ih =>
    obtain ⟨hsource, hrest⟩ := List.forall_mem_cons.1 h
    rw [List.foldl_cons, ih hrest, entry?_step hsource]

theorem keepsField_foldl {field : FieldName}
    (h : ∀ rule ∈ Carrying.activeRules plan, rule.destination.same field = false)
    (periods : List Nat) (computing : Computing) (period : Nat) :
    PeriodEntry.KeepsField field (computing.record.opened period)
      ((periods.foldl (step plan) computing).record.opened period) :=
  List.foldlRecOn
    (motive := fun after : Computing =>
      PeriodEntry.KeepsField field (computing.record.opened period) (after.record.opened period))
    periods (step plan) (.refl field _)
    fun after hkept source _ => hkept.trans (keepsField_step h after source period)

end Computing

/-! ### Computed records -/

namespace Computation

/-- **A changed period shows what it has shown where its entry is in place.**  In any record, sorted
or not, take the entry that a period shows.

* In sorted records it is in place.
* A change of the period opens that entry, and adds none, exactly where it is in place.
* A raw value of it, in a field that no active rule carries into, is shown by the computed record as
  well, if and only if the entry is in place or the range does not reach the period. -/
theorem ofRecord_shows_iff (activity : Activity) (settings : Settings) (record : Record)
    (range : PeriodRange) (period : Nat) (entry : PeriodEntry)
    (hentry : record.entry? period = some entry) :
    let plan := Plan.ofActivity settings activity
    let computed := (ofRecord plan record range).record
    let reached := ∃ source ∈ range.periods activity.periodCount,
      Computing.Reaches plan source period
    (record.Sorted → record.InPlace period) ∧
    ((record.opened period = entry ∧ ∀ changed : PeriodEntry, changed.period = period →
      (record.put changed).entries.length = record.entries.length) ↔ record.InPlace period) ∧
    ∀ (field : FieldName) (text : String), entry.raw? field = some text →
      (∀ rule ∈ activity.carryRules, rule.isActive = true →
        rule.destination.same field = false) →
      ((∃ kept, computed.entry? period = some kept ∧ kept.raw? field = some text) ↔
        (reached → record.InPlace period)) := by
  intro plan computed reached
  refine ⟨fun hsorted => hsorted.inPlace (Record.has_of_entry? hentry),
    Record.opened_eq_iff hentry, fun field text htext hrules => ?_⟩
  have hfree : ∀ rule ∈ Carrying.activeRules plan, rule.destination.same field = false :=
    fun rule hmem => hrules rule (List.mem_filter.1 hmem).1 (List.mem_filter.1 hmem).2
  by_cases hreached : reached
  · rw [forall_prop_of_true hreached]
    -- the period shows the entry that the first change of it opened
    have hshows : computed.ShowsOpened period := Computing.showsOpened_foldl (.inl hreached)
    have hraw : (computed.opened period).raw? field = (record.opened period).raw? field :=
      (Computing.keepsField_foldl hfree (range.periods activity.periodCount)
        { record, notices := foreignNotice plan record } period).raw?
    have hkept : (∃ kept, computed.entry? period = some kept ∧ kept.raw? field = some text) ↔
        (record.opened period).raw? field = some text := by
      rw [hshows, ← hraw]
      exact ⟨fun ⟨kept, hkept, htext⟩ => Option.some.inj hkept ▸ htext, fun h => ⟨_, rfl, h⟩⟩
    rw [hkept]
    refine ⟨fun h => ?_, fun h => (h.opened_eq hentry).1 ▸ htext⟩
    by_contra hout
    rw [(Record.opened_of_not_inPlace hout hentry).1] at h
    cases h
  · refine iff_of_true ⟨entry, ?_, htext⟩ fun h => absurd h hreached
    rw [← hentry]
    exact Computing.entry?_foldl (fun source hmem hreaches => hreached ⟨source, hmem, hreaches⟩) _

/-- The payment of the first half-year is still there after computing, as its entry comes first. -/
theorem ofRecord_shows_credits :
    let activity := Credits.activity [Credits.creditRule]
    let entered := Credits.record "300" .empty .empty
    let computed := (ofRecord (.ofActivity {} activity) entered .all).record
    entered.InPlace 1 ∧ entered.entry? 1 =
        some { period := 1, raw := NameMap.empty.insert Credits.paid "300" } ∧
      ∃ kept, computed.entry? 1 = some kept ∧ kept.raw? Credits.paid = some "300" := by
  intro activity entered computed
  have hplace : entered.InPlace 1 := by decide
  have hentry : entered.entry? 1 =
      some { period := 1, raw := NameMap.empty.insert Credits.paid "300" } := by decide
  obtain ⟨-, -, hshows⟩ := ofRecord_shows_iff activity {} entered .all 1 _ hentry
  exact ⟨hplace, hentry, (hshows Credits.paid "300" (by decide) (by decide)).2 fun _ => hplace⟩

/-- **A period that is listed behind a later one loses what was entered.**  The two half-years in
the other order: a change of the first one finds a blank entry and adds it, and the payment is no
longer shown. -/
theorem ofRecord_hides_credits :
    let activity := Credits.activity [Credits.creditRule]
    let sorted := Credits.record "300" .empty .empty
    let entered := { sorted with entries := sorted.entries.reverse }
    let computed := (ofRecord (.ofActivity {} activity) entered .all).record
    (entered.entry? 1).bind (·.raw? Credits.paid) = some "300" ∧
      entered.opened 1 = .blank 1 ∧ (entered.put (entered.opened 1)).entries.length = 3 ∧
      (∀ rule ∈ activity.carryRules, rule.destination.same Credits.paid = false) ∧
      (computed.entry? 1).isSome = true ∧
      (computed.entry? 1).bind (·.raw? Credits.paid) = none := by
  intro activity sorted entered computed
  have hplan : Plan.ofActivity {} activity = Credits.plan [Credits.creditRule] := Credits.plan_eq _
  refine ⟨by decide, by decide, by decide, by decide, ?_, ?_⟩
  · simp only [computed, hplan]
    decide +kernel
  · simp only [computed, hplan]
    decide +kernel

end Computation

end PeriodSheet
