import Mathlib.Logic.Relation

/-!
# Paths

What leads where along a relation, step after step.

* **`exists_cycle_iff_exists_step`**: what lies on a cycle or before one is one step away from what
  does.
* **`Mirrors`** says that a relation among the places of a list is one among its elements; where
  places lead to is then where their elements lead to (`Mirrors.transGen`).
-/

namespace PeriodSheet

open Relation

variable {α : Type}

/-- What lies on a cycle, or leads to one, leads in one step to what does. -/
theorem exists_cycle_iff_exists_step {r : α → α → Prop} {a : α} :
    (∃ last, (a = last ∨ TransGen r a last) ∧ TransGen r last last) ↔
      ∃ next, r a next ∧ ∃ last, (next = last ∨ TransGen r next last) ∧ TransGen r last last := by
  constructor
  · intro h
    -- on the cycle itself there is a next step as well
    obtain ⟨last, hpath, hcycle⟩ : ∃ last, TransGen r a last ∧ TransGen r last last := by
      obtain ⟨last, rfl | hpath, hcycle⟩ := h
      · exact ⟨a, hcycle, hcycle⟩
      · exact ⟨last, hpath, hcycle⟩
    obtain ⟨next, hstep, hrest⟩ := TransGen.head'_iff.1 hpath
    exact ⟨next, hstep, last, (reflTransGen_iff_eq_or_transGen.1 hrest).imp_left Eq.symm, hcycle⟩
  · rintro ⟨next, hstep, last, rfl | hpath, hcycle⟩
    · exact ⟨next, .inr (.single hstep), hcycle⟩
    · exact ⟨last, .inr (.head hstep hpath), hcycle⟩

/-! ### Places and elements -/

/-- A relation among the places of a list mirrors one among its elements where two places are
related as the elements there are, and neither relation leads out of the list. -/
structure Mirrors (l : List α) (r : Nat → Nat → Prop) (s : α → α → Prop) : Prop where
  target_lt : ∀ {i j}, r i j → j < l.length
  mem_target : ∀ {a b}, s a b → b ∈ l
  iff : ∀ {i j a b}, l[i]? = some a → l[j]? = some b → (r i j ↔ s a b)

variable {l : List α} {r : Nat → Nat → Prop} {s : α → α → Prop}

theorem Mirrors.reached_lt (h : Mirrors l r s) {i j : Nat} (hpath : TransGen r i j) :
    j < l.length := by
  obtain ⟨before, -, hstep⟩ := TransGen.tail'_iff.1 hpath
  exact h.target_lt hstep

theorem Mirrors.mem_reached (h : Mirrors l r s) {a b : α} (hpath : TransGen s a b) : b ∈ l := by
  obtain ⟨before, -, hstep⟩ := TransGen.tail'_iff.1 hpath
  exact h.mem_target hstep

/-- Where places lead to, step after step, mirrors where their elements lead to: on the way, each
place has an element and each element a place. -/
theorem Mirrors.transGen (h : Mirrors l r s) : Mirrors l (TransGen r) (TransGen s) where
  target_lt := h.reached_lt
  mem_target := h.mem_reached
  iff {i j a b} hi hj := by
    constructor
    · intro hpath
      induction hpath generalizing b with
      | single hstep => exact .single ((h.iff hi hj).1 hstep)
      | tail hbefore hstep ih =>
        have hmiddle := List.getElem?_eq_getElem (h.reached_lt hbefore)
        exact (ih hmiddle).tail ((h.iff hmiddle hj).1 hstep)
    · intro hpath
      induction hpath generalizing j with
      | single hstep => exact .single ((h.iff hi hj).2 hstep)
      | tail hbefore hstep ih =>
        obtain ⟨place, hplace⟩ := List.getElem?_of_mem (h.mem_reached hbefore)
        exact (ih hplace).tail ((h.iff hplace hj).2 hstep)

/-- A place is on a cycle or leads to one where its element is or does. -/
theorem Mirrors.exists_cycle_iff (h : Mirrors l r s) {i : Nat} {a : α} (hi : l[i]? = some a) :
    (∃ j, (i = j ∨ r i j) ∧ r j j) ↔ ∃ b, (a = b ∨ s a b) ∧ s b b := by
  constructor
  · rintro ⟨j, rfl | hstep, hcycle⟩
    · exact ⟨a, .inl rfl, (h.iff hi hi).1 hcycle⟩
    · have hj := List.getElem?_eq_getElem (h.target_lt hstep)
      exact ⟨_, .inr ((h.iff hi hj).1 hstep), (h.iff hj hj).1 hcycle⟩
  · rintro ⟨b, rfl | hstep, hcycle⟩
    · exact ⟨i, .inl rfl, (h.iff hi hi).2 hcycle⟩
    · obtain ⟨j, hj⟩ := List.getElem?_of_mem (h.mem_target hstep)
      exact ⟨j, .inr ((h.iff hi hj).2 hstep), (h.iff hj hj).2 hcycle⟩

end PeriodSheet
