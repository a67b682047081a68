import PeriodSheet.Proofs.Calendar
import PeriodSheet.Proofs.FieldName
import PeriodSheet.Proofs.Json.Members
import PeriodSheet.Record.Stored

/-!
# Stored names, numbers and maps

What records and schemas have in common is read back as it was written: field names in the spelling
they were typed in, dates, and maps and sets of names.  A number comes back with all its fraction
digits, except that a zero has no sign then (`Decimal.readBack`), which its value does not show.
-/

namespace PeriodSheet

open Json

/-! ### Members -/

namespace Field

variable {α : Type}

theorem listMember_eq (name : String) (encode : α → Json) (items : List α) :
    listMember name encode items = slotMember (name, listValue encode items) := by
  simp only [listMember, slotMember, listValue]
  split <;> rfl

theorem optionMember_eq (name : String) (encode : α → Json) (value : Option α) :
    optionMember name encode value = slotMember (name, value.map encode) := by
  cases value <;> rfl

end Field

/-! ### Names, dates and numbers -/

theorem FieldName.ofJson?_toJson (name : FieldName) : ofJson? name.toJson = some name := by
  rw [ofJson?, toJson, text?, Option.bind_some, parse?_spelling]

theorem Date.ofJson?_toJson (date : Date) : ofJson? date.toJson = some date := by
  rw [ofJson?, toJson, text?, Option.bind_some, ofStored?_toText]

namespace Decimal

/-- The number that a written number is read back as. -/
def readBack (d : Decimal) : Decimal :=
  { d with negative := d.negative && !d.isZero }

/-- A number is read back in the same form, but for the sign of a zero. -/
theorem normalize_readBack (d : Decimal) : d.readBack.normalize = d.normalize := by
  unfold normalize
  show (if d.isZero then zero else _) = if d.isZero then zero else _
  split
  · rfl
  · rename_i h
    simp [readBack, h]

theorem readBack_of_not_isZero {d : Decimal} (h : d.isZero = false) : d.readBack = d := by
  unfold readBack
  rw [h, Bool.not_false, Bool.and_true]

theorem ofJson?_toJson (d : Decimal) : ofJson? d.toJson = some d.readBack := by
  obtain ⟨r, read, hread, hchars, hextends, hsign⟩ := d.exists_ofChars?_textOf 0
  obtain rfl : read = 0 := Nat.le_zero.1 hread
  have hback : Extends d.readBack r 0 := by
    refine ⟨hextends.coefficient, hextends.scale, fun hne => ?_⟩
    have hnonzero : d.isZero = false := beq_eq_false_iff_ne.2 hne
    rw [hextends.negative hne, readBack_of_not_isZero hnonzero]
  have hr : r = d.readBack := hback.eq_of_sign hsign fun hzero => by
    have hzero : d.isZero = true := hzero
    simp [readBack, hzero]
  have htext : ofText? d.toText = some r := by
    rw [ofText?, toText, String.toList_ofList, toChars]
    rwa [List.replicate_zero, List.append_nil] at hchars
  show (ofText? d.toText <|> _) = some d.readBack
  rw [htext, hr]
  rfl

end Decimal

/-! ### Maps and sets of names -/

namespace NameMap

variable {α : Type}

/-- A name that comes after all others is written behind them. -/
theorem insertEntry_of_forall_lt {name : FieldName} (value : α) {entries : List (FieldName × α)}
    (h : ∀ e ∈ entries, e.1.key < name.key) :
    insertEntry name value entries = entries ++ [(name, value)] := by
  induction entries with
  | nil => rfl
  | cons head rest ih =>
    obtain ⟨other, old⟩ := head
    obtain ⟨hhead, hrest⟩ := List.forall_mem_cons.1 h
    have hlt : ¬ name.key < other.key := String.lt_asymm hhead
    have hne : name.key ≠ other.key := fun heq => String.lt_irrefl _ (heq ▸ hhead)
    rw [insertEntry, if_neg hlt, if_neg hne, ih hrest, List.cons_append]

/-- Ascending entries that come after those of a map are written behind them, one by one. -/
theorem entries_foldl_insert (entries : List (FieldName × α)) (map : NameMap α)
    (h : Ascending (map.entries ++ entries)) :
    (entries.foldl (fun map e => map.insert e.1 e.2) map).entries = map.entries ++ entries := by
  induction entries generalizing map with
  | nil => exact (List.append_nil _).symm
  | cons e rest ih =>
    have hinsert : (map.insert e.1 e.2).entries = map.entries ++ [e] :=
      insertEntry_of_forall_lt e.2 fun other hother =>
        (List.pairwise_append.1 h).2.2 other hother e List.mem_cons_self
    have hrest : Ascending ((map.insert e.1 e.2).entries ++ rest) := by
      rwa [hinsert, List.append_assoc]
    rw [List.foldl_cons, ih _ hrest, hinsert, List.append_assoc]
    rfl

theorem ofList_entries (map : NameMap α) : ofList map.entries = map :=
  eq_of_entries (entries_foldl_insert map.entries empty map.ascending)

theorem ofJson?_toJson {encode : α → Json} {decode : Json → Option α} (map : NameMap α)
    (h : ∀ a, decode (encode a) = some a) : ofJson? decode (map.toJson encode) = some map := by
  have hread : ofJson? decode (map.toJson encode) = some (ofList (map.toList.map id)) := by
    unfold ofJson? toJson
    refine reads_next rfl (reads_next (mapM_map_eq_some fun e _ => ?_) rfl)
    exact reads_next e.1.parse?_spelling (reads_next (h e.2) rfl)
  rw [hread, List.map_id]
  exact congrArg some map.ofList_entries

theorem plain_toJson {encode : α → Json} (map : NameMap α) (h : ∀ a, Plain 0 (encode a)) :
    Plain 1 (map.toJson encode) :=
  .record (List.forall_mem_map.2 fun e _ => h e.2)

end NameMap

namespace NameSet

theorem ofJson?_toJson (set : NameSet) : ofJson? set.toJson = some set := by
  have hnames : list? FieldName.ofJson? set.toJson = some set.names :=
    list?_ofList fun name _ => name.ofJson?_toJson
  have hentries : set.names.map (·, ()) = set.entries := by
    rw [NameMap.names, List.map_map]
    exact List.map_id _
  rw [ofJson?, hnames]
  show some (NameMap.ofList (set.names.map (·, ()))) = some set
  rw [hentries, NameMap.ofList_entries]

/-- A set is left out where it is empty. -/
theorem orElse?_names {fields : Fields} {slots : List (String × Option Json)} {name : String}
    (h : fields.Holds slots) {set : NameSet}
    (hslot : (slots.lookup name).join = listValue FieldName.toJson set.names) :
    fields.orElse? name .empty ofJson? = some set := by
  rw [Fields.orElse?, h.get?, hslot, listValue]
  cases hnames : set.names with
  | nil =>
    have hset : set = .empty := NameMap.eq_of_entries (List.map_eq_nil_iff.1 hnames)
    exact congrArg some hset.symm
  | cons first rest =>
    have hread := ofJson?_toJson set
    rw [toJson, hnames] at hread
    exact hread

end NameSet

end PeriodSheet
