import PeriodSheet.FieldName

/-!
# Maps keyed by field names

A finite map from field names to values, kept in ascending order of the names' keys.  Two names that
differ in case share one entry: writing through either replaces the value and keeps the spelling
that was there first.
-/

namespace PeriodSheet

/-- Whether the entries stand in strictly ascending order of their keys. -/
def Ascending {α : Type} (entries : List (FieldName × α)) : Prop :=
  entries.Pairwise fun a b => a.1.key < b.1.key

/-- A map from field names to values. -/
structure NameMap (α : Type) where
  entries : List (FieldName × α)
  ascending : Ascending entries

namespace NameMap

variable {α β : Type}

/-! ### Entries -/

/-- Writes a value among the entries, at the place of its key. -/
def insertEntry (name : FieldName) (value : α) : List (FieldName × α) → List (FieldName × α)
  | [] => [(name, value)]
  | (other, old) :: rest =>
    if name.key < other.key then (name, value) :: (other, old) :: rest
    else if name.key = other.key then (other, value) :: rest
    else (other, old) :: insertEntry name value rest

theorem mem_insertEntry {name : FieldName} {value : α} {entries : List (FieldName × α)}
    {e : FieldName × α} (h : e ∈ insertEntry name value entries) :
    e.1.key = name.key ∨ e ∈ entries := by
  induction entries with
  | nil => simp_all [insertEntry]
  | cons head rest ih =>
    obtain ⟨other, old⟩ := head
    grind [insertEntry]

theorem ascending_insertEntry (name : FieldName) (value : α) {entries : List (FieldName × α)}
    (h : Ascending entries) : Ascending (insertEntry name value entries) := by
  induction entries with
  | nil => simp [insertEntry, Ascending]
  | cons head rest ih =>
    obtain ⟨other, old⟩ := head
    obtain ⟨hhead, hrest⟩ := List.pairwise_cons.1 h
    unfold insertEntry
    split
    · rename_i hlt
      refine List.pairwise_cons.2 ⟨fun e he => ?_, h⟩
      rcases List.mem_cons.1 he with rfl | he
      · exact hlt
      · exact String.lt_trans hlt (hhead e he)
    · split
      · exact List.pairwise_cons.2 ⟨hhead, hrest⟩
      · rename_i hlt hne
        refine List.pairwise_cons.2 ⟨fun e he => ?_, ih hrest⟩
        rcases mem_insertEntry he with heq | he
        · simp only at hhead ⊢
          grind
        · exact hhead e he

theorem ascending_map (f : α → β) {entries : List (FieldName × α)} (h : Ascending entries) :
    Ascending (entries.map fun e => (e.1, f e.2)) :=
  List.pairwise_map.2 h

/-! ### Operations -/

def empty : NameMap α := ⟨[], List.Pairwise.nil⟩

instance : Inhabited (NameMap α) := ⟨empty⟩

/-- The entry of a name, with the spelling that the map holds. -/
def entry? (map : NameMap α) (name : FieldName) : Option (FieldName × α) :=
  map.entries.find? (·.1.same name)

def get? (map : NameMap α) (name : FieldName) : Option α :=
  (map.entry? name).map (·.2)

def contains (map : NameMap α) (name : FieldName) : Bool :=
  map.entries.any (·.1.same name)

/-- Writes the value of a name; an entry that exists keeps its spelling. -/
def insert (map : NameMap α) (name : FieldName) (value : α) : NameMap α :=
  ⟨insertEntry name value map.entries, ascending_insertEntry name value map.ascending⟩

def filter (keep : FieldName → α → Bool) (map : NameMap α) : NameMap α :=
  ⟨map.entries.filter fun e => keep e.1 e.2, map.ascending.filter _⟩

def map (f : α → β) (map : NameMap α) : NameMap β :=
  ⟨map.entries.map fun e => (e.1, f e.2), ascending_map f map.ascending⟩

def erase (map : NameMap α) (name : FieldName) : NameMap α :=
  map.filter fun other _ => !other.same name

/-- The map of a list of entries: of several for one name, the first gives the spelling and the
last the value. -/
def ofList (entries : List (FieldName × α)) : NameMap α :=
  entries.foldl (fun map e => map.insert e.1 e.2) empty

/-- The map of a list of entries: of several for one name, the last one stands. -/
def ofLast (entries : List (FieldName × α)) : NameMap α :=
  entries.foldl (fun map e => (map.erase e.1).insert e.1 e.2) empty

def toList (map : NameMap α) : List (FieldName × α) :=
  map.entries

def names (map : NameMap α) : List FieldName :=
  map.entries.map (·.1)

theorem eq_of_entries {a b : NameMap α} (h : a.entries = b.entries) : a = b := by
  cases a
  cases b
  cases h
  rfl

instance [DecidableEq α] : DecidableEq (NameMap α) := fun a b =>
  if h : a.entries = b.entries then isTrue (eq_of_entries h) else isFalse fun e => h (e ▸ rfl)

end NameMap

/-- A set of field names, each in the spelling it was first added with. -/
abbrev NameSet := NameMap Unit

end PeriodSheet
