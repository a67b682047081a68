import PeriodSheet.Rule.Carry
import PeriodSheet.Proofs.Entries
import PeriodSheet.Proofs.PlainText

/-!
# Slots

What an entry holds for one field, and what carry rules may do to it.

* **`Slot`** is a field's raw text with its mark.
* **`CarryAction`** is what a rule sets out to do with a slot.  An action changes the slot or leaves
  it alone, and with each change it reports the new value.

A slot that holds nothing of a user's is *derived*.  Every action that stands for a value brings all
derived slots to the same one, so that a run of actions forgets what an earlier run left there
(`run_eq_of_derived`); and the same run once more changes nothing, however many rules share the slot
(`run_run`).  A user's value is out of reach where the policy preserves it (`run_manual`).
-/

namespace PeriodSheet

open Text

/-! ### Slots -/

/-- What an entry holds for a field. -/
structure Slot where
  text : Option String
  isCarried : Bool
deriving DecidableEq

namespace Slot

/-- The raw text of the slot; none where it is blank. -/
def shown (slot : Slot) : Option String :=
  slot.text.filter (!isBlankText ·)

/-- The slot after a carry rule gave it a value, or took its value back. -/
def carrying (value : Option String) : Slot :=
  ⟨value, value.isSome⟩

/-- A slot holds a user's value where its text is not blank and no carry rule wrote it. -/
def IsManual (slot : Slot) : Prop :=
  slot.shown.isSome = true ∧ slot.isCarried = false

/-- A slot is derived where a user had no part in it: it is marked, or it holds no text at all, and
what it shows has no white space around it. -/
def IsDerived (slot : Slot) : Prop :=
  (slot.isCarried = true ∨ slot.text = none) ∧ ∀ text, slot.shown = some text → trim text = text

end Slot

namespace PeriodEntry

/-- What the entry holds for a field. -/
def slot (entry : PeriodEntry) (field : FieldName) : Slot :=
  ⟨entry.raw.get? field, entry.isCarried field⟩

theorem raw?_eq_shown (entry : PeriodEntry) (field : FieldName) :
    entry.raw? field = (entry.slot field).shown :=
  rfl

/-- A slot does not depend on the spelling of the field. -/
theorem slot_congr (entry : PeriodEntry) {a b : FieldName} (h : a.same b = true) :
    entry.slot a = entry.slot b := by
  simp only [slot, isCarried, NameMap.contains_eq_isSome, NameMap.get?_congr _ h]

@[simp]
theorem slot_carry (entry : PeriodEntry) (field other : FieldName) (text : String) :
    (entry.carry field text).slot other =
      if field.same other then .carrying (some text) else entry.slot other := by
  by_cases h : field.same other = true <;> simp [slot, carry, isCarried, Slot.carrying, h]

@[simp]
theorem slot_withdraw (entry : PeriodEntry) (field other : FieldName) :
    (entry.withdraw field).slot other =
      if field.same other then .carrying none else entry.slot other := by
  by_cases h : field.same other = true <;> simp [slot, withdraw, isCarried, Slot.carrying, h]

/-- The entry after a carry rule gave a field a value, or took its value back. -/
def receive (entry : PeriodEntry) (field : FieldName) : Option String → PeriodEntry
  | some text => entry.carry field text
  | none => entry.withdraw field

theorem slot_receive (entry : PeriodEntry) (field other : FieldName) (value : Option String) :
    (entry.receive field value).slot other =
      if field.same other then .carrying value else entry.slot other := by
  cases value with
  | none => exact slot_withdraw entry field other
  | some text => exact slot_carry entry field other text

/-- Entries of one period are the same where their slots and their computed values are. -/
theorem same_of_slots {a b : PeriodEntry} (hperiod : a.period = b.period)
    (hslot : ∀ field, a.slot field = b.slot field) (hcomputed : a.computed.Same b.computed) :
    a.Same b := by
  refine ⟨hperiod, fun name => congrArg Slot.text (hslot name), hcomputed, fun name => ?_⟩
  have hcarried : a.carried.contains name = b.carried.contains name :=
    congrArg Slot.isCarried (hslot name)
  -- a mark has no content, so that it is there or not is all there is to it
  rw [NameMap.contains_eq_isSome, NameMap.contains_eq_isSome] at hcarried
  cases ha : a.carried.get? name <;> cases hb : b.carried.get? name <;> simp_all

theorem Same.slot {a b : PeriodEntry} (h : a.Same b) (field : FieldName) :
    a.slot field = b.slot field := by
  simp only [PeriodEntry.slot, isCarried, h.raw field, h.carried.contains field]

end PeriodEntry

/-! ### Actions -/

/-- What a carry rule sets out to do with its destination. -/
inductive CarryAction where
  /-- The origin failed: the destination is left alone. -/
  | keep
  /-- There is nothing to carry: what was carried is taken back. -/
  | withdraw
  | write (text : String)
deriving DecidableEq

namespace CarryAction

/-- What an action writes, if it writes at all, is a trimmed text. -/
def IsTrimmed : CarryAction → Prop
  | .write text => Text.IsTrimmed text
  | _ => True

/-- The value that an action gives to a slot, where it changes the slot: `some none` takes a value
back. -/
def change? (policy : CarryPolicy) (slot : Slot) : CarryAction → Option (Option String)
  | .keep => none
  | .withdraw => if slot.isCarried then some none else none
  | .write text =>
    if policy.allows slot.shown slot.isCarried then
      if slot.shown.map trim = some text then none else some (some text)
    else none

/-- The slot after an action. -/
def apply (policy : CarryPolicy) (slot : Slot) (action : CarryAction) : Slot :=
  match action.change? policy slot with
  | none => slot
  | some value => .carrying value

/-- The slot after some actions, one after the other. -/
def run (policy : CarryPolicy) (actions : List CarryAction) (slot : Slot) : Slot :=
  actions.foldl (apply policy) slot

/-- The value that an action stands for, if it stands for one. -/
def value? : CarryAction → Option (Option String)
  | .keep => none
  | .withdraw => some none
  | .write text => some (some text)

/-- An action that changes a slot gives it the value that it stands for. -/
theorem value?_of_change? {policy : CarryPolicy} {slot : Slot} {action : CarryAction}
    {value : Option String} (h : action.change? policy slot = some value) :
    action.value? = some value := by
  cases action with
  | keep => cases h
  | withdraw =>
    simp only [change?, Option.ite_none_right_eq_some] at h
    exact h.2
  | write text =>
    simp only [change?, Option.ite_none_right_eq_some, Option.ite_none_left_eq_some] at h
    exact h.2.2

/-- An action without a value leaves every slot alone. -/
theorem apply_of_value?_none {policy : CarryPolicy} {slot : Slot} {action : CarryAction}
    (h : action.value? = none) : apply policy slot action = slot := by
  cases action with
  | keep => rfl
  | withdraw => cases h
  | write text => cases h

/-! #### Derived slots -/

/-- The slot that a trimmed action leaves behind is a derived one. -/
theorem isDerived_carrying {action : CarryAction} (htrimmed : action.IsTrimmed)
    {value : Option String} (h : action.value? = some value) :
    (Slot.carrying value).IsDerived := by
  cases action with
  | keep => cases h
  | withdraw =>
    obtain rfl : none = value := Option.some.inj h
    exact ⟨.inr rfl, fun text htext => by cases htext⟩
  | write text =>
    obtain rfl : some text = value := Option.some.inj h
    refine ⟨.inl rfl, fun shown hshown => ?_⟩
    obtain rfl : text = shown := Option.some.inj (Option.filter_eq_some_iff.1 hshown).1
    exact htrimmed.2

/-- An action gives a derived slot the value that it stands for. -/
theorem apply_derived (policy : CarryPolicy) {slot : Slot} (hslot : slot.IsDerived)
    {action : CarryAction} {value : Option String} (h : action.value? = some value) :
    apply policy slot action = .carrying value := by
  obtain ⟨text, isCarried⟩ := slot
  obtain ⟨hfree, hshown⟩ := hslot
  -- neither policy protects the slot: it is marked or shows nothing
  have hallows : policy.allows (Slot.shown ⟨text, isCarried⟩) isCarried = true := by
    cases policy with
    | overwrite => rfl
    | preserveManual =>
      cases hshow : Slot.shown ⟨text, isCarried⟩ with
      | none => rfl
      | some raw =>
        rcases hfree with rfl | rfl
        · rfl
        · cases hshow
  cases action with
  | keep => cases h
  | withdraw =>
    obtain rfl : none = value := Option.some.inj h
    rcases hfree with rfl | rfl
    · rfl
    · cases isCarried <;> rfl
  | write new =>
    obtain rfl : some new = value := Option.some.inj h
    simp only [apply, change?, hallows, if_true]
    by_cases hsame : (Slot.shown ⟨text, isCarried⟩).map trim = some new
    · -- the text is there already, and a derived slot shows it as it is written
      obtain ⟨raw, hraw, htrim⟩ := Option.map_eq_some_iff.1 hsame
      have htext : text = some raw := (Option.filter_eq_some_iff.1 hraw).1
      have hnew : raw = new := (hshown raw hraw).symm.trans htrim
      subst htext hnew
      rcases hfree with rfl | hnone
      · simp [hsame, Slot.carrying]
      · cases hnone
    · simp [hsame]

/-- A derived slot stays one. -/
theorem isDerived_apply (policy : CarryPolicy) {slot : Slot} (hslot : slot.IsDerived)
    {action : CarryAction} (htrimmed : action.IsTrimmed) :
    (apply policy slot action).IsDerived := by
  cases h : action.value? with
  | none => rwa [apply_of_value?_none h]
  | some value => exact apply_derived policy hslot h ▸ isDerived_carrying htrimmed h

/-- An action leaves a slot alone exactly where it reports no change. -/
theorem apply_eq_self_iff {policy : CarryPolicy} {slot : Slot} {action : CarryAction}
    (htrimmed : action.IsTrimmed) :
    apply policy slot action = slot ↔ action.change? policy slot = none := by
  refine ⟨fun h => ?_, fun h => by rw [apply, h]⟩
  cases hchange : action.change? policy slot with
  | none => rfl
  | some value =>
    rw [apply, hchange] at h
    change Slot.carrying value = slot at h
    subst h
    cases action with
    | keep => cases hchange
    | withdraw => cases value <;> cases hchange
    | write text =>
      obtain rfl : some text = value := by simpa [value?] using value?_of_change? hchange
      -- the slot would show the text already, and the action would report no change
      have hshown : (Slot.carrying (some text)).shown = some text := by
        simp [Slot.shown, Slot.carrying, htrimmed.1]
      simp [change?, hshown, htrimmed.2] at hchange

/-! #### Runs -/

theorem run_cons (policy : CarryPolicy) (action : CarryAction) (rest : List CarryAction)
    (slot : Slot) : run policy (action :: rest) slot = run policy rest (apply policy slot action) :=
  rfl

/-- Actions without values leave every slot alone. -/
theorem run_of_value?_none (policy : CarryPolicy) {actions : List CarryAction}
    (h : ∀ action ∈ actions, action.value? = none) (slot : Slot) :
    run policy actions slot = slot := by
  induction actions with
  | nil => rfl
  | cons action rest ih =>
    rw [run_cons, apply_of_value?_none (h action List.mem_cons_self)]
    exact ih fun a hmem => h a (List.mem_cons_of_mem action hmem)

theorem isDerived_run (policy : CarryPolicy) {actions : List CarryAction}
    (htrimmed : ∀ action ∈ actions, action.IsTrimmed) {slot : Slot} (hslot : slot.IsDerived) :
    (run policy actions slot).IsDerived := by
  induction actions generalizing slot with
  | nil => exact hslot
  | cons action rest ih =>
    rw [run_cons]
    exact ih (fun a h => htrimmed a (List.mem_cons_of_mem action h))
      (isDerived_apply policy hslot (htrimmed action List.mem_cons_self))

/-- Actions of which one stands for a value bring all derived slots to one and the same. -/
theorem run_eq_of_derived (policy : CarryPolicy) {actions : List CarryAction}
    (hvalue : ∃ action ∈ actions, action.value? ≠ none) {a b : Slot} (ha : a.IsDerived)
    (hb : b.IsDerived) : run policy actions a = run policy actions b := by
  induction actions with
  | nil => obtain ⟨_, hmem, _⟩ := hvalue; cases hmem
  | cons action rest ih =>
    rw [run_cons, run_cons]
    cases h : action.value? with
    | none =>
      rw [apply_of_value?_none h, apply_of_value?_none h]
      obtain ⟨other, hmem, hother⟩ := hvalue
      rcases List.mem_cons.1 hmem with rfl | hmem
      · exact absurd h hother
      · exact ih ⟨other, hmem, hother⟩
    | some value =>
      -- from here on the two slots are one
      rw [apply_derived policy ha h, apply_derived policy hb h]

/-- Actions leave a slot alone, or else they bring it, and with it every derived slot, to one and
the same derived slot. -/
theorem run_cases (policy : CarryPolicy) {actions : List CarryAction}
    (htrimmed : ∀ action ∈ actions, action.IsTrimmed) (slot : Slot) :
    run policy actions slot = slot ∨
      (run policy actions slot).IsDerived ∧
        ∀ other : Slot, other.IsDerived → run policy actions other = run policy actions slot := by
  induction actions generalizing slot with
  | nil => exact .inl rfl
  | cons action rest ih =>
    have hhead : action.IsTrimmed := htrimmed action List.mem_cons_self
    have hrest : ∀ action ∈ rest, action.IsTrimmed :=
      fun a h => htrimmed a (List.mem_cons_of_mem action h)
    simp only [run_cons]
    cases hchange : action.change? policy slot with
    | none =>
      have hself : apply policy slot action = slot := by rw [apply, hchange]
      rw [hself]
      refine (ih hrest slot).imp_right ?_
      rintro ⟨hderived, hall⟩
      exact ⟨hderived, fun other hother => hall _ (isDerived_apply policy hother hhead)⟩
    | some value =>
      -- from the first change on, the slot is a derived one like any other
      have hvalue := value?_of_change? hchange
      have hself : apply policy slot action = .carrying value := by rw [apply, hchange]
      rw [hself]
      exact .inr ⟨isDerived_run policy hrest (isDerived_carrying hhead hvalue),
        fun other hother => by rw [apply_derived policy hother hvalue]⟩

/-- The same actions once more change nothing. -/
theorem run_run (policy : CarryPolicy) {actions : List CarryAction}
    (htrimmed : ∀ action ∈ actions, action.IsTrimmed) (slot : Slot) :
    run policy actions (run policy actions slot) = run policy actions slot := by
  rcases run_cases policy htrimmed slot with hself | ⟨hderived, hall⟩
  · rw [hself, hself]
  · exact hall _ hderived

/-- No action touches a user's value where the policy preserves it. -/
theorem run_manual {slot : Slot} (h : slot.IsManual) (actions : List CarryAction) :
    run .preserveManual actions slot = slot := by
  obtain ⟨hshown, hcarried⟩ := h
  obtain ⟨text, htext⟩ := Option.isSome_iff_exists.1 hshown
  have hblank : isBlankText text = false := by
    have := (Option.filter_eq_some_iff.1 htext).2
    simpa using this
  induction actions with
  | nil => rfl
  | cons action rest ih =>
    -- a text without a mark is neither overwritten nor taken back
    have hself : apply .preserveManual slot action = slot := by
      cases action <;> simp [apply, change?, CarryPolicy.allows, hcarried, htext, hblank]
    exact (congrArg (run .preserveManual rest) hself).trans ih

end CarryAction

end PeriodSheet
