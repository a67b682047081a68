import PeriodSheet.Json.Basic
import PeriodSheet.Power

/-!
# Plain JSON values

The values that stored data is made of: no approximate numbers, integers that fit 64 bits with or
without a sign, and not too many arrays and objects inside one another.  Every part of a plain value
can be read (`Plain.isReadable`).
-/

namespace PeriodSheet.Json

/-- A plain value, with at most `room` arrays and objects inside one another. -/
inductive Plain : Nat → Json → Prop where
  | null (room : Nat) : Plain room .null
  | bool (room : Nat) (value : Bool) : Plain room (.bool value)
  | integer (room : Nat) {n : Int} (hlow : -(twoPow 63 : Int) ≤ n) (hhigh : n < twoPow 64) :
      Plain room (.integer n)
  | text (room : Nat) (value : String) : Plain room (.text value)
  | list {room : Nat} {items : List Json} (h : ∀ item ∈ items, Plain room item) :
      Plain (room + 1) (.list items)
  | record {room : Nat} {members : List (String × Json)} (h : ∀ m ∈ members, Plain room m.2) :
      Plain (room + 1) (.record members)

namespace Plain

theorem mono {room more : Nat} {value : Json} (h : Plain room value) (hle : room ≤ more) :
    Plain more value := by
  induction h generalizing more with
  | null => exact .null more
  | bool _ value => exact .bool more value
  | integer _ hlow hhigh => exact .integer more hlow hhigh
  | text _ value => exact .text more value
  | list _ ih =>
    obtain ⟨more, rfl⟩ : ∃ m, more = m + 1 := ⟨more - 1, by omega⟩
    exact .list fun item hitem => ih item hitem (by omega)
  | record _ ih =>
    obtain ⟨more, rfl⟩ : ∃ m, more = m + 1 := ⟨more - 1, by omega⟩
    exact .record fun m hm => ih m hm (by omega)

theorem ofNat (room : Nat) {n : Nat} (h : n < twoPow 64) : Plain room (.ofNat n) :=
  .integer room (by omega) (by exact_mod_cast h)

theorem ofList {α : Type} {room : Nat} {encode : α → Json} {as : List α}
    (h : ∀ a ∈ as, Plain room (encode a)) : Plain (room + 1) (.ofList encode as) :=
  .list (List.forall_mem_map.2 h)

end Plain

/-! ### Readable parts -/

theorem itemsUnreadable_eq (accept : Bool → Bool) (items : List Json) :
    itemsUnreadable accept items = items.all (eachUnreadable accept) := by
  induction items with
  | nil => rfl
  | cons item rest ih => rw [itemsUnreadable, ih, List.all_cons]

theorem membersUnreadable_eq (accept : Bool → Bool) (members : List (String × Json)) :
    membersUnreadable accept members = members.all fun m => eachUnreadable accept m.2 := by
  induction members with
  | nil => rfl
  | cons m rest ih =>
    obtain ⟨name, value⟩ := m
    rw [membersUnreadable, ih, List.all_cons]

theorem Plain.isReadable {room : Nat} {value : Json} (h : Plain room value) :
    value.isReadable = true := by
  unfold Json.isReadable
  induction h with
  | list _ ih => rw [eachUnreadable, itemsUnreadable_eq, List.all_eq_true]; exact ih
  | record _ ih => rw [eachUnreadable, membersUnreadable_eq, List.all_eq_true]; exact ih
  | _ => rfl

end PeriodSheet.Json
