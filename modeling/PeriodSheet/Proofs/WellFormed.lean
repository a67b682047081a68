import Mathlib.Logic.Relation
import PeriodSheet.Proofs.Recompute
import PeriodSheet.Proofs.StoreHistory

/-!
# Well-formed records

A record is well formed when its entries are ascending and every field that is marked as carried
holds a value.  Whatever changes a record keeps that: an edit takes the mark away together with a
blank text, a carry rule writes a number that is never blank or takes mark and value back together,
and entries are added in their places.  So all records that clients come by are well formed, as long
as they begin with such ones (`Session.wellFormed_of_steps`).
-/

namespace PeriodSheet

open Text

/-! ### Marks -/

/-- Whether a slot that is marked as carried shows a value. -/
def Slot.HoldsMarked (slot : Slot) : Prop :=
  slot.isCarried = true → slot.shown.isSome = true

namespace CarryAction

/-- What a trimmed action leaves in a slot is a value with a mark, or neither. -/
theorem holdsMarked_apply (policy : CarryPolicy) {slot : Slot} (hslot : slot.HoldsMarked)
    {action : CarryAction} (htrimmed : action.IsTrimmed) :
    (apply policy slot action).HoldsMarked := by
  unfold apply
  cases hchange : action.change? policy slot with
  | none => exact hslot
  | some value =>
    cases value with
    | none => exact nofun
    | some text =>
      cases action with
      | keep => cases hchange
      | withdraw => cases value?_of_change? hchange
      | write written =>
        obtain rfl : written = text := by simpa [value?] using value?_of_change? hchange
        intro _
        simp [Slot.shown, Slot.carrying, htrimmed.1]

theorem holdsMarked_run (policy : CarryPolicy) {actions : List CarryAction}
    (htrimmed : ∀ action ∈ actions, action.IsTrimmed) {slot : Slot} (hslot : slot.HoldsMarked) :
    (run policy actions slot).HoldsMarked :=
  List.foldlRecOn (motive := Slot.HoldsMarked) actions _ hslot fun _ hslot action hmem =>
    holdsMarked_apply policy hslot (htrimmed action hmem)

end CarryAction

namespace PeriodEntry

/-- Whether every field that is marked as carried holds a value that is not blank. -/
def HoldsMarked (entry : PeriodEntry) : Prop :=
  ∀ field, entry.isCarried field = true → (entry.raw? field).isSome = true

/-- The fields that are marked are those of the marks, in whatever spelling. -/
theorem holdsMarked_iff {entry : PeriodEntry} :
    entry.HoldsMarked ↔ ∀ field ∈ entry.carried.names, (entry.raw? field).isSome = true := by
  constructor
  · rintro h field hmem
    obtain ⟨mark, hmark, rfl⟩ := List.mem_map.1 hmem
    exact h _ (List.any_eq_true.2 ⟨mark, hmark, FieldName.same_refl _⟩)
  · intro h field hcarried
    obtain ⟨mark, hmark, hsame⟩ := List.any_eq_true.1 hcarried
    rw [raw?_eq_shown, ← slot_congr entry hsame, ← raw?_eq_shown]
    exact h _ (List.mem_map_of_mem hmark)

instance (entry : PeriodEntry) : Decidable entry.HoldsMarked :=
  decidable_of_iff _ holdsMarked_iff.symm

theorem holdsMarked_blank (period : Nat) : (blank period).HoldsMarked := by
  intro field h
  cases h

theorem holdsMarked_edit {entry : PeriodEntry} (h : entry.HoldsMarked) (field : FieldName)
    (text : String) : (entry.edit field text).HoldsMarked := by
  intro other hcarried
  simp only [edit, isCarried, NameMap.contains_erase, Bool.and_eq_true, Bool.not_eq_true']
    at hcarried
  obtain ⟨hother, hcarried⟩ := hcarried
  -- the edit is of another field, whose value stays
  have hraw : (entry.edit field text).raw? other = entry.raw? other := by
    unfold raw? edit
    dsimp only
    split <;> simp [hother]
  rw [hraw]
  exact h other hcarried

theorem holdsMarked_carryInto (plan : Plan) (entry : PeriodEntry) {next : PeriodEntry}
    (h : next.HoldsMarked) : (entry.carryInto plan next).entry.HoldsMarked := by
  intro field
  change ((entry.carryInto plan next).entry.slot field).HoldsMarked
  rw [slot_carryInto]
  exact CarryAction.holdsMarked_run _ (fun _ => Carrying.isTrimmed_of_mem_actionsFor) (h field)

end PeriodEntry

/-! ### Records -/

namespace Record

/-- Whether the entries are ascending and every field that is marked as carried holds a value. -/
structure WellFormed (record : Record) : Prop where
  ascending : record.Ascending
  marked : ∀ entry ∈ record.entries, entry.HoldsMarked

theorem wellFormed_iff {record : Record} :
    record.WellFormed ↔ record.Ascending ∧ ∀ entry ∈ record.entries, entry.HoldsMarked :=
  ⟨fun h => ⟨h.ascending, h.marked⟩, fun h => ⟨h.1, h.2⟩⟩

instance (record : Record) : Decidable record.WellFormed :=
  decidable_of_iff _ wellFormed_iff.symm

theorem wellFormed_enroll (key : RecordKey) (activity : Activity) :
    (Record.enroll key activity).WellFormed where
  ascending := by
    refine List.pairwise_map.2 ?_
    exact List.pairwise_lt_range'
  marked entry hmem := by
    obtain ⟨period, -, rfl⟩ := List.mem_map.1 hmem
    exact PeriodEntry.holdsMarked_blank period

namespace WellFormed

variable {record : Record}

/-- How often a record has been saved does not matter. -/
theorem withVersion (h : record.WellFormed) (version : Nat) :
    ({ record with version } : Record).WellFormed :=
  ⟨h.ascending, h.marked⟩

theorem opened (h : record.WellFormed) (period : Nat) : (record.opened period).HoldsMarked := by
  rcases record.opened_mem_or_blank period with hmem | hblank
  · exact h.marked _ hmem
  · exact hblank ▸ PeriodEntry.holdsMarked_blank period

theorem put (h : record.WellFormed) {changed : PeriodEntry} (hchanged : changed.HoldsMarked) :
    (record.put changed).WellFormed where
  ascending := h.ascending.put changed
  marked entry hmem := by
    rcases mem_putEntry hmem with rfl | hmem
    · exact hchanged
    · exact h.marked entry hmem

theorem edit (h : record.WellFormed) (period : Nat) (field : FieldName) (text : String) :
    (record.edit period field text).WellFormed :=
  h.put (PeriodEntry.holdsMarked_edit (h.opened period) field text)

theorem computePeriod (h : record.WellFormed) (plan : Plan) (period : Nat) :
    (record.computePeriod plan period).WellFormed := by
  have hevaluated : ((record.opened period).evaluated plan).HoldsMarked := h.opened period
  unfold Record.computePeriod
  dsimp only
  split
  · exact (h.put hevaluated).put
      (PeriodEntry.holdsMarked_carryInto plan _ (h.opened (period + 1)))
  · exact h.put hevaluated

theorem compute (h : record.WellFormed) (plan : Plan) (range : PeriodRange) :
    (Computation.ofRecord plan record range).record.WellFormed := by
  rw [Computation.record_eq_foldl plan h.ascending.sorted]
  exact List.foldlRecOn (motive := WellFormed) _ _ h fun _ h period _ => h.computePeriod plan period

end WellFormed

end Record

/-! ### Sessions -/

/-- The record that a call saves, if it does. -/
def StoreCall.record? : StoreCall → Option Record
  | .save record _ => some record
  | _ => none

/-- The record that a client is answered, if it is. -/
def StoreAnswer.record? : StoreAnswer → Option Record
  | .loaded record => some record
  | .enrolled record => some record
  | _ => none

/-- Clients at work: all records that they have held so far, and the store that they share. -/
structure Session where
  held : List Record
  store : RecordStore

namespace Session

/-- From here on a record is held as well. -/
def hold (session : Session) (record : Record) : Session :=
  { session with held := record :: session.held }

/-- What may happen next. -/
inductive Step (session : Session) : Session → Prop where
  /-- Somebody joins an activity. -/
  | enroll (key : RecordKey) (activity : Activity) :
      Step session (session.hold (.enroll key activity))
  /-- A period is opened, which adds a blank entry of it where there is none. -/
  | openPeriod {record : Record} (hheld : record ∈ session.held) (period : Nat) :
      Step session (session.hold (record.put (record.opened period)))
  | edit {record : Record} (hheld : record ∈ session.held) (period : Nat) (field : FieldName)
      (text : String) : Step session (session.hold (record.edit period field text))
  | compute {record : Record} (hheld : record ∈ session.held) (activity : Activity)
      (settings : Settings) (range : PeriodRange) :
      Step session
        (session.hold (Computation.ofRecord (.ofActivity settings activity) record range).record)
  /-- The store is called, which may save a record that is held; one that it answers is held from
  here on. -/
  | call {call : StoreCall} (hheld : ∀ record ∈ call.record?, record ∈ session.held) :
      Step session
        { held := (session.store.serve call).1.record?.toList ++ session.held
          store := (session.store.serve call).2 }

/-- Whether all records, be they held or stored, are well formed. -/
structure WellFormed (session : Session) : Prop where
  held : ∀ record ∈ session.held, record.WellFormed
  stored : ∀ record ∈ session.store.toList, record.WellFormed

theorem WellFormed.hold {session : Session} (h : session.WellFormed) {record : Record}
    (hrecord : record.WellFormed) : (session.hold record).WellFormed :=
  ⟨List.forall_mem_cons.2 ⟨hrecord, h.held⟩, h.stored⟩

theorem WellFormed.serve {session : Session} (h : session.WellFormed) {call : StoreCall}
    (hheld : ∀ record ∈ call.record?, record ∈ session.held) :
    (∀ record ∈ (session.store.serve call).1.record?, record.WellFormed) ∧
      ∀ record ∈ (session.store.serve call).2.toList, record.WellFormed := by
  have hserves := session.store.serves call
  generalize session.store.serve call = served at hserves ⊢
  obtain ⟨answer, left⟩ := served
  have hput : ∀ added : Record, added.WellFormed →
      ∀ record ∈ (session.store.put added).toList, record.WellFormed := by
    intro added hadded record hmem
    rcases RecordStore.mem_toList_put hmem with rfl | hmem
    · exact hadded
    · exact h.stored record hmem
  cases hserves with
  | loaded hget =>
    refine ⟨fun record hmem => ?_, h.stored⟩
    obtain rfl := Option.mem_some_iff.1 hmem
    exact h.stored _ (RecordStore.mem_toList_of_get? hget)
  | @enrolled key activity hget =>
    refine ⟨fun record hmem => ?_, hput _ (Record.wellFormed_enroll key activity)⟩
    obtain rfl := Option.mem_some_iff.1 hmem
    exact Record.wellFormed_enroll key activity
  | @saved record expected hversion =>
    exact ⟨nofun, hput _ ((h.held record (hheld record rfl)).withVersion _)⟩
  | _ => exact ⟨nofun, h.stored⟩

theorem WellFormed.step {before after : Session} (h : before.WellFormed)
    (hstep : before.Step after) : after.WellFormed := by
  cases hstep with
  | enroll key activity => exact h.hold (Record.wellFormed_enroll key activity)
  | @openPeriod record hheld period =>
    have hrecord := h.held record hheld
    exact h.hold (hrecord.put (hrecord.opened period))
  | @edit record hheld period field text =>
    exact h.hold ((h.held record hheld).edit period field text)
  | @compute record hheld activity settings range =>
    exact h.hold ((h.held record hheld).compute _ range)
  | @call call hheld =>
    obtain ⟨hanswered, hstored⟩ := h.serve hheld
    refine ⟨fun record hmem => ?_, hstored⟩
    rcases List.mem_append.1 hmem with hmem | hmem
    · exact hanswered record (Option.mem_toList.1 hmem)
    · exact h.held record hmem

/-- **Records stay well formed.**  From well-formed records, in the hands of clients and in a store
that was seeded with them, clients who open periods, edit fields, compute records, and call the
store only come by well-formed records, and leave only such in the store. -/
theorem wellFormed_of_steps (given seeds : List Record)
    (hgiven : ∀ record ∈ given, record.WellFormed) (hseeds : ∀ record ∈ seeds, record.WellFormed)
    {session : Session} (hsteps : Relation.ReflTransGen Step ⟨given, .ofList seeds⟩ session) :
    ∀ record ∈ session.held ++ session.store.toList, record.WellFormed := by
  have hstart : WellFormed ⟨given, .ofList seeds⟩ := by
    refine ⟨hgiven, ?_⟩
    refine List.foldlRecOn
      (motive := fun store : RecordStore => ∀ record ∈ store.toList, record.WellFormed) seeds _
      nofun fun store hstored seed hseed record hmem => ?_
    rcases RecordStore.mem_toList_put hmem with rfl | hmem
    · exact hseeds _ hseed
    · exact hstored record hmem
  have hsession : session.WellFormed := by
    induction hsteps with
    | refl => exact hstart
    | tail _ hstep ih => exact ih.step hstep
  intro record hmem
  rcases List.mem_append.1 hmem with hmem | hmem
  · exact hsession.held record hmem
  · exact hsession.stored record hmem

/-- A credit that was carried in an earlier run is carried again, then cleared by hand, and the
record is saved beside one of another client. -/
theorem wellFormed_of_steps_credits :
    let carried := NameMap.empty.insert Credits.previous ()
    let entered := Credits.record "300" (NameMap.empty.insert Credits.previous "250") carried
    let seed : Record := { client := 43, activity := 1, fiscalYear := some 2025, version := 2 }
    let activity := Credits.activity [Credits.creditRule]
    let computed := (Computation.ofRecord (.ofActivity {} activity) entered .all).record
    let cleared := computed.edit 2 Credits.previous "  "
    let served := (RecordStore.ofList [seed]).serve (.save cleared 0)
    let session : Session :=
      { held := served.1.record?.toList ++ [cleared, computed, entered]
        store := served.2 }
    entered.WellFormed ∧ seed.WellFormed ∧
      Relation.ReflTransGen Step ⟨[entered], .ofList [seed]⟩ session ∧
      cleared.WellFormed ∧ ∀ record ∈ session.store.toList, record.WellFormed := by
  intro carried entered seed activity computed cleared served session
  have hentered : entered.WellFormed := by decide +kernel
  have hseed : seed.WellFormed := by decide +kernel
  have hsteps : Relation.ReflTransGen Step ⟨[entered], .ofList [seed]⟩ session := by
    let start : Session := ⟨[entered], .ofList [seed]⟩
    have hcompute : Step start (start.hold computed) :=
      .compute (List.mem_singleton_self entered) activity {} .all
    have hclear : Step (start.hold computed) ((start.hold computed).hold cleared) :=
      .edit List.mem_cons_self 2 Credits.previous "  "
    have hsave : Step ((start.hold computed).hold cleared) session := by
      refine @Step.call _ (.save cleared 0) fun record hrecord => ?_
      obtain rfl := Option.mem_some_iff.1 hrecord
      exact List.mem_cons_self
    exact ((Relation.ReflTransGen.refl.tail hcompute).tail hclear).tail hsave
  have hall := wellFormed_of_steps [entered] [seed] (List.forall_mem_singleton.2 hentered)
    (List.forall_mem_singleton.2 hseed) hsteps
  refine ⟨hentered, hseed, hsteps, hall cleared ?_, fun record hmem => hall record ?_⟩
  · simp [session]
  · exact List.mem_append_right _ hmem

end Session

end PeriodSheet
