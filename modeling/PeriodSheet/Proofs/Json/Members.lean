import Mathlib.Data.List.Basic
import PeriodSheet.Json.Decode
import PeriodSheet.Proofs.Json.Plain

/-!
# Reading what was written

Writers leave out members that have nothing to say, and readers put the default in their place.  An
object is described here by its slots: the names of all its members in order, each with the value
that is written under it, if one is.  The object of some slots has the members that a structure of
these names asks for (`exists_fields`), and each reader of a member finds its slot (`Fields.Holds`).
-/

namespace PeriodSheet.Json

/-! ### Objects and their slots -/

/-- A slot as it is written. -/
def slotMember (slot : String × Option Json) : Option (String × Json) :=
  slot.2.map (slot.1, ·)

def ofSlots (slots : List (String × Option Json)) : Json :=
  .record (slots.filterMap slotMember)

/-- The value of a list that is written where it is not empty. -/
def listValue {α : Type} (encode : α → Json) (items : List α) : Option Json :=
  if items.isEmpty then none else some (ofList encode items)

theorem forall_mem_listValue {α : Type} {encode : α → Json} {items : List α} {room : Nat}
    (h : ∀ a ∈ items, Plain room (encode a)) :
    ∀ value ∈ listValue encode items, Plain (room + 1) value := by
  intro value hvalue
  unfold listValue at hvalue
  split at hvalue
  · cases hvalue
  · exact Option.some.inj hvalue ▸ .ofList h

theorem forall_mem_map {α : Type} {encode : α → Json} {value? : Option α} {room : Nat}
    (h : ∀ a ∈ value?, Plain room (encode a)) :
    ∀ value ∈ value?.map encode, Plain room value := by
  intro value hvalue
  obtain ⟨a, ha, rfl⟩ := Option.map_eq_some_iff.1 hvalue
  exact h a ha

theorem ofMembers_map_slotMember (slots : List (String × Option Json)) :
    ofMembers (slots.map slotMember) = ofSlots slots := by
  rw [ofMembers, ofSlots, List.filterMap_map]
  rfl

theorem slotMember_eq_some {slot : String × Option Json} {m : String × Json} :
    slotMember slot = some m ↔ slot = (m.1, some m.2) := by
  obtain ⟨name, value?⟩ := slot
  cases value? <;> simp [slotMember, Prod.ext_iff]

theorem mem_written {slots : List (String × Option Json)} {m : String × Json} :
    m ∈ slots.filterMap slotMember ↔ (m.1, some m.2) ∈ slots := by
  simp [List.mem_filterMap, slotMember_eq_some]

theorem plain_ofSlots {room : Nat} {slots : List (String × Option Json)}
    (h : ∀ slot ∈ slots, ∀ value ∈ slot.2, Plain room value) :
    Plain (room + 1) (ofSlots slots) :=
  .record fun m hm => h (m.1, some m.2) (mem_written.1 hm) m.2 rfl

theorem pairwise_written {slots : List (String × Option Json)} (h : (slots.map (·.1)).Nodup) :
    (slots.filterMap slotMember).Pairwise fun a b => a.1 ≠ b.1 := by
  refine (List.pairwise_map.1 h).filterMap slotMember fun a b hne m hm m' hm' => ?_
  rw [slotMember_eq_some] at hm hm'
  rwa [hm, hm'] at hne

theorem lookup_written {slots : List (String × Option Json)} (h : (slots.map (·.1)).Nodup)
    (name : String) :
    (slots.filterMap slotMember).lookup name = (slots.lookup name).join := by
  induction slots with
  | nil => rfl
  | cons slot rest ih =>
    obtain ⟨own, value?⟩ := slot
    have hown : own ∉ rest.map (·.1) := (List.nodup_cons.1 h).1
    have hrest : (rest.map (·.1)).Nodup := (List.nodup_cons.1 h).2
    cases value? with
    | some value =>
      show List.lookup name ((own, value) :: rest.filterMap slotMember) = _
      rw [List.lookup_cons, List.lookup_cons, ih hrest]
      cases name == own <;> rfl
    | none =>
      show List.lookup name (rest.filterMap slotMember) = _
      rw [ih hrest, List.lookup_cons]
      cases hname : name == own with
      | false => rfl
      | true =>
        -- a slot of the name without a value leaves nothing to be found
        have hnone : rest.lookup name = none := by
          rw [List.lookup_eq_none_iff]
          intro slot hslot
          have hmem : slot.1 ∈ rest.map (·.1) := List.mem_map_of_mem hslot
          have hne : own ≠ slot.1 := fun heq => hown (heq ▸ hmem)
          rw [eq_of_beq hname]
          exact bne_iff_ne.2 hne
        rw [hnone]
        rfl

/-! ### Plain data -/

/-- A reader that reads one thing after the other. -/
theorem reads_next {α β : Type} {first : Option α} {rest : α → Option β} {a : α} {b : β}
    (hfirst : first = some a) (hrest : rest a = some b) : (first >>= rest) = some b := by
  rw [hfirst]
  exact hrest

theorem mapM_map_eq_some {α β γ : Type} {encode : α → β} {decode : β → Option γ} {f : α → γ}
    {as : List α} (h : ∀ a ∈ as, decode (encode a) = some (f a)) :
    (as.map encode).mapM decode = some (as.map f) := by
  induction as with
  | nil => rfl
  | cons a rest ih =>
    obtain ⟨ha, hrest⟩ := List.forall_mem_cons.1 h
    rw [List.map_cons, List.mapM_cons, ha, ih hrest]
    rfl

theorem list?_ofList {α : Type} {encode : α → Json} {decode : Json → Option α} {as : List α}
    (h : ∀ a ∈ as, decode (encode a) = some a) : list? decode (ofList encode as) = some as :=
  (mapM_map_eq_some (f := id) h).trans (congrArg some as.map_id)

/-- The integers of 64 bits, with a sign. -/
def IsInt64 (n : Int) : Prop :=
  -(twoPow 63 : Int) ≤ n ∧ n ≤ (twoPow 63 - 1 : Nat)

instance (n : Int) : Decidable (IsInt64 n) :=
  inferInstanceAs (Decidable (_ ∧ _))

/-- The integers of 32 bits, with a sign. -/
def IsInt32 (n : Int) : Prop :=
  -(twoPow 31 : Int) ≤ n ∧ n ≤ (twoPow 31 - 1 : Nat)

instance (n : Int) : Decidable (IsInt32 n) :=
  inferInstanceAs (Decidable (_ ∧ _))

theorem IsInt64.int64? {n : Int} (h : IsInt64 n) : int64? (.integer n) = some n :=
  if_pos h

theorem IsInt32.int32? {n : Int} (h : IsInt32 n) : int32? (.integer n) = some n :=
  if_pos h

theorem IsInt64.plain {n : Int} (h : IsInt64 n) (room : Nat) : Plain room (.integer n) := by
  have hbound : ((twoPow 63 - 1 : Nat) : Int) < twoPow 64 := by decide
  exact .integer room h.1 (Int.lt_of_le_of_lt h.2 hbound)

theorem IsInt32.isInt64 {n : Int} (h : IsInt32 n) : IsInt64 n := by
  have hlow : -(twoPow 63 : Int) ≤ -(twoPow 31 : Int) := by decide
  have hhigh : ((twoPow 31 - 1 : Nat) : Int) ≤ (twoPow 63 - 1 : Nat) := by decide
  exact ⟨Int.le_trans hlow h.1, Int.le_trans h.2 hhigh⟩

theorem natBelow?_ofNat {bound n : Nat} (h : n < bound) : natBelow? bound (ofNat n) = some n := by
  have hwithin : (0 : Int) ≤ n ∧ (n : Int) < bound := by omega
  rw [ofNat, natBelow?, if_pos hwithin, Int.toNat_natCast]

/-! ### Structures -/

/-- Whether the members of a structure, each given by its names, have first names of their own that
stand for no other member. -/
def IsNaming (names : List (List String)) : Prop :=
  (names.filterMap List.head?).Nodup ∧
    ∀ name ∈ names.filterMap List.head?, firstName? names name = some name

instance (names : List (List String)) : Decidable (IsNaming names) :=
  inferInstanceAs (Decidable (_ ∧ _))

/-- The members of some structure are those of some slots. -/
structure Fields.Holds (fields : Fields) (slots : List (String × Option Json)) : Prop where
  positional : fields.positional = false
  get? : ∀ name, fields.get? name = (slots.lookup name).join

theorem allDistinct_iff {texts : List String} : allDistinct texts = true ↔ texts.Nodup := by
  induction texts with
  | nil => simp [allDistinct]
  | cons s rest ih => simp [allDistinct, ih]

/-- **A structure reads the object that was written for it.** -/
theorem exists_fields (medium : Medium) (names : List (List String))
    (slots : List (String × Option Json)) (hnames : IsNaming names)
    (hslots : slots.map (·.1) = names.filterMap List.head?) :
    ∃ fields, fields? medium names (ofSlots slots) = some fields ∧ fields.Holds slots := by
  obtain ⟨hnodup, hfirst⟩ := hnames
  rw [← hslots] at hnodup hfirst
  have hown : ∀ m ∈ slots.filterMap slotMember, firstName? names m.1 = some m.1 := fun m hm =>
    hfirst m.1 (List.mem_map_of_mem (mem_written.1 hm))
  have hknown : ((slots.filterMap slotMember).filterMap fun m =>
      (firstName? names m.1).map (·, m.2)) = slots.filterMap slotMember := by
    refine (List.filterMap_congr fun m hm => ?_).trans List.filterMap_some
    rw [hown m hm, Option.map_some]
  have hdistinct : allDistinct ((slots.filterMap slotMember).map (·.1)) = true :=
    allDistinct_iff.2 (List.pairwise_map.2 (pairwise_written hnodup))
  have hskips : skipsOthers names (slots.filterMap slotMember) = true := by
    rw [skipsOthers, List.all_eq_true]
    rintro ⟨name, value⟩ hm
    simp [hown (name, value) hm]
  refine ⟨⟨false, slots.filterMap slotMember⟩, ?_, rfl, fun name => lookup_written hnodup name⟩
  simp only [ofSlots, fields?, hknown, hdistinct, hskips, Bool.and_self, if_true]

namespace Fields.Holds

variable {fields : Fields} {slots : List (String × Option Json)} {name : String} {α : Type}
  {decode : Json → Option α}

theorem required? (h : fields.Holds slots) {value : Json} {a : α}
    (hslot : (slots.lookup name).join = some value) (hdecode : decode value = some a) :
    fields.required? name decode = some a := by
  rw [Fields.required?, h.get?, hslot, Option.bind_some, hdecode]

theorem orElse? (h : fields.Holds slots) {missing : α} {value : Json} {a : α}
    (hslot : (slots.lookup name).join = some value) (hdecode : decode value = some a) :
    fields.orElse? name missing decode = some a := by
  rw [Fields.orElse?, h.get?, hslot]
  exact hdecode

/-- What is left out is what is missing; anything else comes back as the reader gives it. -/
theorem nullable?_map (h : fields.Holds slots) {encode : α → Json} {value? : Option α} {f : α → α}
    (hslot : (slots.lookup name).join = value?.map encode)
    (hnull : ∀ a, Json.nullable? decode (encode a) = (decode (encode a)).map some)
    (hdecode : ∀ a ∈ value?, decode (encode a) = some (f a)) :
    fields.orElse? name none (Json.nullable? decode) = some (value?.map f) := by
  rw [Fields.orElse?, h.get?, hslot]
  cases value? with
  | none => rfl
  | some a =>
    show Json.nullable? decode (encode a) = some (some (f a))
    rw [hnull, hdecode a rfl, Option.map_some]

theorem nullable? (h : fields.Holds slots) {encode : α → Json} {value? : Option α}
    (hslot : (slots.lookup name).join = value?.map encode)
    (hnull : ∀ a, Json.nullable? decode (encode a) = (decode (encode a)).map some)
    (hdecode : ∀ a ∈ value?, decode (encode a) = some a) :
    fields.orElse? name none (Json.nullable? decode) = some value? := by
  rw [h.nullable?_map (f := id) hslot hnull hdecode, Option.map_id_fun, id]

theorem listValue? (h : fields.Holds slots) {encode : α → Json} {items : List α}
    (hslot : (slots.lookup name).join = listValue encode items)
    (hdecode : ∀ a ∈ items, decode (encode a) = some a) :
    fields.orElse? name [] (list? decode) = some items := by
  rw [Fields.orElse?, h.get?, hslot, listValue]
  cases items with
  | nil => rfl
  | cons a rest => exact list?_ofList hdecode

end Fields.Holds

/-! ### What was read -/

section Read

variable {α : Type} {decode : Json → Option α} {value : Json} {a : α}

theorem lt_of_natBelow? {bound n : Nat} (h : natBelow? bound value = some n) : n < bound := by
  unfold natBelow? at h
  split at h
  · rename_i k
    split at h
    · obtain rfl := Option.some.inj h
      omega
    · cases h
  · cases h

theorem isInt64_of_int64? {n : Int} (h : int64? value = some n) : IsInt64 n := by
  unfold int64? intWithin? at h
  split at h
  · split at h
    · rename_i hwithin
      exact Option.some.inj h ▸ hwithin
    · cases h
  · cases h

theorem isInt32_of_int32? {n : Int} (h : int32? value = some n) : IsInt32 n := by
  unfold int32? intWithin? at h
  split at h
  · split at h
    · rename_i hwithin
      exact Option.some.inj h ▸ hwithin
    · cases h
  · cases h

theorem exists_of_nullable? (h : nullable? decode value = some (some a)) :
    ∃ value, decode value = some a := by
  unfold nullable? at h
  split at h
  · cases h
  · obtain ⟨b, hb, heq⟩ := Option.map_eq_some_iff.1 h
    exact ⟨value, hb.trans heq⟩

theorem exists_of_mem_list? {as : List α} (h : list? decode value = some as) (hmem : a ∈ as) :
    ∃ value, decode value = some a := by
  cases value with
  | list items =>
    replace h : items.mapM decode = some as := h
    induction items generalizing as with
    | nil =>
      obtain rfl := Option.some.inj h
      cases hmem
    | cons item rest ih =>
      rw [List.mapM_cons] at h
      obtain ⟨b, hb, h⟩ := Option.bind_eq_some_iff.1 h
      obtain ⟨bs, hbs, h⟩ := Option.bind_eq_some_iff.1 h
      obtain rfl := Option.some.inj h
      rcases List.mem_cons.1 hmem with rfl | hmem
      · exact ⟨item, hb⟩
      · exact ih hmem hbs
  | _ => cases h

namespace Fields

variable {fields : Fields} {name : String}

theorem exists_of_required? (h : fields.required? name decode = some a) :
    ∃ value, decode value = some a := by
  obtain ⟨value, -, hvalue⟩ := Option.bind_eq_some_iff.1 h
  exact ⟨value, hvalue⟩

theorem eq_or_exists_of_orElse? {missing : α} (h : fields.orElse? name missing decode = some a) :
    a = missing ∨ ∃ value, decode value = some a := by
  unfold orElse? at h
  split at h
  · exact .inl (Option.some.inj h).symm
  · exact .inr ⟨_, h⟩

end Fields

end Read

end PeriodSheet.Json
