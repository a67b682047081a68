import PeriodSheet.NameMap

/-!
# Looking names up

What a map of names answers after a name was written or erased, or its values were changed, and
where it was filled from a list.  Names are told apart by their keys alone, so a look-up answers
alike for all spellings of a name.

Two maps are the *same* when they answer alike for every name.  The spelling that a map keeps for a
name does not matter for that, just as it does not matter for whether two names are the same.
-/

namespace PeriodSheet

namespace FieldName

theorem same_comm (a b : FieldName) : a.same b = b.same a := by
  unfold same
  exact Bool.beq_comm

theorem same_congr_left {a b : FieldName} (h : a.same b = true) (c : FieldName) :
    a.same c = b.same c := by
  unfold same
  rw [same_iff.1 h]

theorem same_congr_right {a b : FieldName} (h : a.same b = true) (c : FieldName) :
    c.same a = c.same b := by
  rw [same_comm c a, same_comm c b, same_congr_left h]

end FieldName

namespace NameMap

variable {α β : Type}

/-! ### After a change -/

@[simp]
theorem get?_empty (name : FieldName) : (empty : NameMap α).get? name = none :=
  rfl

@[simp]
theorem contains_empty (name : FieldName) : (empty : NameMap α).contains name = false :=
  rfl

theorem get?_congr (map : NameMap α) {a b : FieldName} (h : a.same b = true) :
    map.get? a = map.get? b := by
  unfold get? entry?
  simp only [FieldName.same_congr_right h]

theorem contains_eq_isSome (map : NameMap α) (name : FieldName) :
    map.contains name = (map.get? name).isSome := by
  simp only [contains, get?, entry?, Option.isSome_map]
  rw [Bool.eq_iff_iff]
  simp

theorem find?_insertEntry (name other : FieldName) (value : α) (entries : List (FieldName × α)) :
    ((insertEntry name value entries).find? (·.1.same other)).map (·.2) =
      if name.same other then some value else (entries.find? (·.1.same other)).map (·.2) := by
  induction entries with
  | nil => by_cases h : name.same other = true <;> simp [insertEntry, h]
  | cons head rest ih =>
    obtain ⟨held, old⟩ := head
    unfold insertEntry
    split
    · by_cases h : name.same other = true <;> simp [h]
    · split
      · rename_i heq
        -- the entry keeps its spelling, which answers for the same names
        have hsame : held.same other = name.same other :=
          FieldName.same_congr_left (FieldName.same_iff.2 heq.symm) other
        by_cases h : name.same other = true <;> simp [h, hsame]
      · rename_i hne
        by_cases hheld : held.same other = true
        · have hname : name.same other = false := by
            rw [Bool.eq_false_iff]
            intro hname
            exact hne ((FieldName.same_iff.1 hname).trans (FieldName.same_iff.1 hheld).symm)
          simp [hheld, hname]
        · simpa [hheld] using ih

/-- After a name was written, it has the new value; the other names are as before. -/
@[simp]
theorem get?_insert (map : NameMap α) (name other : FieldName) (value : α) :
    (map.insert name value).get? other =
      if name.same other then some value else map.get? other :=
  find?_insertEntry name other value map.entries

/-- Among the entries of the names that are kept, a name that is kept has its value, and the others
have none; which names are kept must not depend on their spelling. -/
theorem get?_filter (map : NameMap α) {keep : FieldName → Bool}
    (hkeep : ∀ {a b : FieldName}, a.same b = true → keep a = keep b) (name : FieldName) :
    (map.filter fun other _ => keep other).get? name =
      if keep name then map.get? name else none := by
  simp only [get?, entry?, filter, List.find?_filter]
  by_cases h : keep name = true
  · rw [if_pos h]
    congr 2
    funext e
    by_cases he : e.1.same name = true
    · simp [he, hkeep he, h]
    · simp [he]
  · have hnone : map.entries.find? (fun e => keep e.1 && e.1.same name) = none := by
      rw [List.find?_eq_none]
      intro e _ he
      obtain ⟨hkept, hsame⟩ := Bool.and_eq_true_iff.1 he
      exact h (hkeep hsame ▸ hkept)
    simp [h, hnone]

/-- After a name was erased, it has no value; the other names are as before. -/
@[simp]
theorem get?_erase (map : NameMap α) (name other : FieldName) :
    (map.erase name).get? other = if name.same other then none else map.get? other := by
  have hkeep : ∀ {a b : FieldName}, a.same b = true → (!a.same name) = !b.same name :=
    fun h => congrArg (!·) (FieldName.same_congr_left h name)
  rw [erase, get?_filter map hkeep, FieldName.same_comm other name]
  cases name.same other <;> rfl

@[simp]
theorem contains_insert (map : NameMap α) (name other : FieldName) (value : α) :
    (map.insert name value).contains other = (name.same other || map.contains other) := by
  rw [contains_eq_isSome, get?_insert, contains_eq_isSome]
  by_cases h : name.same other = true <;> simp [h]

@[simp]
theorem contains_erase (map : NameMap α) (name other : FieldName) :
    (map.erase name).contains other = (!name.same other && map.contains other) := by
  rw [contains_eq_isSome, get?_erase, contains_eq_isSome]
  by_cases h : name.same other = true <;> simp [h]

@[simp]
theorem get?_map (f : α → β) (map : NameMap α) (name : FieldName) :
    (map.map f).get? name = (map.get? name).map f := by
  simp only [get?, entry?, NameMap.map, List.find?_map, Option.map_map]
  rfl

theorem get?_of_mem {map : NameMap α} {e : FieldName × α} (h : e ∈ map.entries) :
    map.get? e.1 = some e.2 := by
  obtain ⟨entries, hasc⟩ := map
  change e ∈ entries at h
  change (entries.find? (·.1.same e.1)).map (·.2) = some e.2
  induction entries with
  | nil => cases h
  | cons head rest ih =>
    obtain ⟨hhead, hrest⟩ := List.pairwise_cons.1 hasc
    rcases List.mem_cons.1 h with rfl | hmem
    · simp [FieldName.same_refl]
    · have hne : head.1.same e.1 = false := by
        rw [Bool.eq_false_iff]
        intro hsame
        have hlt := hhead e hmem
        rw [FieldName.same_iff.1 hsame] at hlt
        exact String.lt_irrefl _ hlt
      rw [List.find?_cons_of_neg (by simp [hne])]
      exact ih hrest hmem

theorem exists_mem_of_get? {map : NameMap α} {name : FieldName} {value : α}
    (h : map.get? name = some value) : ∃ e ∈ map.entries, e.1.same name = true ∧ e.2 = value := by
  obtain ⟨e, he, rfl⟩ := Option.map_eq_some_iff.1 h
  have hname : e.1.same name = true :=
    List.find?_some (p := fun e : FieldName × α => e.1.same name) he
  exact ⟨e, List.mem_of_find?_eq_some he, hname, rfl⟩

/-! ### From a list -/

section

variable {write : NameMap α → FieldName × α → NameMap α} {name : FieldName}
  (hwrite : ∀ map e, (write map e).get? name = if e.1.same name then some e.2 else map.get? name)
  {entries : List (FieldName × α)}

include hwrite

theorem get?_foldl_of_forall (h : ∀ e ∈ entries, e.1.same name = false) (map : NameMap α) :
    (entries.foldl write map).get? name = map.get? name := by
  induction entries generalizing map with
  | nil => rfl
  | cons e rest ih =>
    have hhead := h e List.mem_cons_self
    rw [List.foldl_cons, ih fun e he => h e (List.mem_cons_of_mem _ he), hwrite, hhead]
    rfl

/-- Under distinct names, every entry that is written is found. -/
theorem get?_foldl_of_mem (hnames : entries.Pairwise fun a b => a.1.same b.1 = false)
    {e : FieldName × α} (h : e ∈ entries) (hname : e.1.same name = true) (map : NameMap α) :
    (entries.foldl write map).get? name = some e.2 := by
  obtain ⟨before, after, rfl⟩ := List.append_of_mem h
  have hafter := (List.pairwise_cons.1 (List.pairwise_append.1 hnames).2.1).1
  have hlater : ∀ other ∈ after, other.1.same name = false := fun other hother => by
    rw [FieldName.same_comm, ← FieldName.same_congr_left hname]
    exact hafter other hother
  rw [List.foldl_append, List.foldl_cons, get?_foldl_of_forall hwrite hlater, hwrite, if_pos hname]

end

theorem get?_ofList_of_forall {entries : List (FieldName × α)} {name : FieldName}
    (h : ∀ e ∈ entries, e.1.same name = false) : (ofList entries).get? name = none :=
  get?_foldl_of_forall (fun _ _ => get?_insert ..) h empty

theorem get?_ofList_of_mem {entries : List (FieldName × α)}
    (hnames : entries.Pairwise fun a b => a.1.same b.1 = false) {e : FieldName × α}
    (h : e ∈ entries) {name : FieldName} (hname : e.1.same name = true) :
    (ofList entries).get? name = some e.2 :=
  get?_foldl_of_mem (fun _ _ => get?_insert ..) hnames h hname empty

/-! ### Sameness -/

/-- Two maps are the same when they answer alike for every name. -/
def Same (a b : NameMap α) : Prop :=
  ∀ name, a.get? name = b.get? name

theorem Same.contains {a b : NameMap α} (h : a.Same b) (name : FieldName) :
    a.contains name = b.contains name := by
  rw [contains_eq_isSome, contains_eq_isSome, h name]

/-- Whether some value satisfies a condition does not depend on spellings. -/
theorem Same.any {a b : NameMap α} (h : a.Same b) (p : α → Bool) :
    (a.toList.any fun e => p e.2) = b.toList.any fun e => p e.2 := by
  have half : ∀ {a b : NameMap α}, a.Same b → (a.toList.any fun e => p e.2) = true →
      (b.toList.any fun e => p e.2) = true := by
    intro a b h hany
    obtain ⟨e, he, hp⟩ := List.any_eq_true.1 hany
    obtain ⟨e', he', -, hvalue⟩ := exists_mem_of_get? ((h e.1).symm.trans (get?_of_mem he))
    exact List.any_eq_true.2 ⟨e', he', hvalue ▸ hp⟩
  rw [Bool.eq_iff_iff]
  exact ⟨half h, half fun name => (h name).symm⟩

end NameMap

end PeriodSheet
