import PeriodSheet.Proofs.Stored.Parts

/-!
# Stored records

A record whose numbers have the widths that stored data gives them is read back as it was written,
down to the spelling of its names (`Record.ofJson?_toJson`).  What is read has these widths, so that
it can be written again (`Record.storable_of_ofJson?`).
-/

namespace PeriodSheet

open Json

namespace PeriodEntry

def slots (entry : PeriodEntry) : List (String × Option Json) :=
  [("period", some (.ofNat entry.period)),
    ("raw", some (entry.raw.toJson .text)),
    ("computed", some (entry.computed.toJson .text)),
    ("carried", listValue FieldName.toJson entry.carried.names)]

theorem toJson_eq (entry : PeriodEntry) : entry.toJson = ofSlots entry.slots := by
  rw [toJson, Field.listMember_eq]
  exact ofMembers_map_slotMember entry.slots

theorem ofJson?_toJson {entry : PeriodEntry} (h : entry.period < twoPow 32) :
    ofJson? entry.toJson = some entry := by
  obtain ⟨m, hfields, hm⟩ := exists_fields .json
    [["period"], ["raw"], ["computed"], ["carried"]] entry.slots (by decide) rfl
  rw [toJson_eq]
  unfold ofJson?
  exact reads_next hfields <|
    reads_next (hm.required? rfl (natBelow?_ofNat h)) <|
    reads_next (hm.orElse? rfl (entry.raw.ofJson?_toJson fun _ => rfl)) <|
    reads_next (hm.orElse? rfl (entry.computed.ofJson?_toJson fun _ => rfl)) <|
    reads_next (NameSet.orElse?_names hm rfl) rfl

theorem plain_toJson {entry : PeriodEntry} (h : entry.period < twoPow 32) :
    Plain 2 entry.toJson := by
  have hperiod : entry.period < twoPow 64 := Nat.lt_trans h (by decide)
  rw [toJson_eq]
  refine plain_ofSlots ?_
  simp only [slots, List.forall_mem_cons, Option.mem_some_iff, forall_eq']
  exact ⟨.ofNat 1 hperiod, entry.raw.plain_toJson (.text 0), entry.computed.plain_toJson (.text 0),
    forall_mem_listValue fun name _ => .text 0 name.spelling, by simp⟩

theorem period_lt_of_ofJson? {value : Json} {entry : PeriodEntry} (h : ofJson? value = some entry) :
    entry.period < twoPow 32 := by
  simp only [ofJson?, Option.bind_eq_bind, Option.bind_eq_some_iff] at h
  obtain ⟨m, -, period, hperiod, raw, -, computed, -, carried, -, hentry⟩ := h
  obtain ⟨value, hvalue⟩ := Fields.exists_of_required? hperiod
  rw [← Option.some.inj hentry]
  exact lt_of_natBelow? hvalue

end PeriodEntry

namespace Record

/-- Whether the numbers of a record have the widths that stored data gives them. -/
structure Storable (record : Record) : Prop where
  client : IsInt64 record.client
  activity : IsInt64 record.activity
  fiscalYear : ∀ year ∈ record.fiscalYear, IsInt32 year
  version : record.version < twoPow 64
  entries : ∀ entry ∈ record.entries, entry.period < twoPow 32

instance (record : Record) : Decidable record.Storable :=
  decidable_of_iff (IsInt64 record.client ∧ IsInt64 record.activity ∧
      (∀ year ∈ record.fiscalYear, IsInt32 year) ∧ record.version < twoPow 64 ∧
      ∀ entry ∈ record.entries, entry.period < twoPow 32)
    ⟨fun ⟨hclient, hactivity, hyear, hversion, hentries⟩ =>
        ⟨hclient, hactivity, hyear, hversion, hentries⟩,
      fun ⟨hclient, hactivity, hyear, hversion, hentries⟩ =>
        ⟨hclient, hactivity, hyear, hversion, hentries⟩⟩

def slots (record : Record) : List (String × Option Json) :=
  [("client_id", some (.integer record.client)),
    ("activity_id", some (.integer record.activity)),
    ("fiscal_year", record.fiscalYear.map .integer),
    ("version", some (.ofNat record.version)),
    ("periods", some (.ofList PeriodEntry.toJson record.entries))]

theorem toJson_eq (record : Record) : record.toJson = ofSlots record.slots := by
  rw [toJson, Field.optionMember_eq]
  exact ofMembers_map_slotMember record.slots

/-- **Stored records read back.** -/
theorem ofJson?_toJson {record : Record} (h : record.Storable) :
    ofJson? record.toJson = some record := by
  obtain ⟨m, hfields, hm⟩ := exists_fields .json
    [["client_id"], ["activity_id"], ["fiscal_year"], ["version"], ["periods"]] record.slots
    (by decide) rfl
  rw [toJson_eq]
  unfold ofJson?
  exact reads_next hfields <|
    reads_next (hm.required? rfl h.client.int64?) <|
    reads_next (hm.required? rfl h.activity.int64?) <|
    reads_next (hm.nullable? rfl (fun _ => rfl) fun year hyear =>
      (h.fiscalYear year hyear).int32?) <|
    reads_next (hm.orElse? rfl (natBelow?_ofNat h.version)) <|
    reads_next (hm.orElse? rfl (list?_ofList fun entry hentry =>
      PeriodEntry.ofJson?_toJson (h.entries entry hentry))) rfl

theorem plain_toJson {record : Record} (h : record.Storable) : Plain 4 record.toJson := by
  rw [toJson_eq]
  refine plain_ofSlots ?_
  simp only [slots, List.forall_mem_cons, Option.mem_some_iff, forall_eq']
  exact ⟨h.client.plain 3, h.activity.plain 3,
    Json.forall_mem_map fun year hyear => (h.fiscalYear year hyear).isInt64.plain 3,
    .ofNat 3 h.version,
    .ofList fun entry hentry => PeriodEntry.plain_toJson (h.entries entry hentry), by simp⟩

/-- A record that was read can be stored again. -/
theorem storable_of_ofJson? {value : Json} {record : Record} (h : ofJson? value = some record) :
    record.Storable := by
  simp only [ofJson?, Option.bind_eq_bind, Option.bind_eq_some_iff] at h
  obtain ⟨m, -, client, hclient, activity, hactivity, year, hyear, version, hversion, entries,
    hentries, hrecord⟩ := h
  obtain rfl := Option.some.inj hrecord
  obtain ⟨_, hclient⟩ := Fields.exists_of_required? hclient
  obtain ⟨_, hactivity⟩ := Fields.exists_of_required? hactivity
  refine ⟨isInt64_of_int64? hclient, isInt64_of_int64? hactivity, fun n hn => ?_, ?_,
    fun entry hentry => ?_⟩
  · obtain rfl : year = some n := hn
    rcases Fields.eq_or_exists_of_orElse? hyear with hnone | ⟨_, hyear⟩
    · cases hnone
    · obtain ⟨_, hyear⟩ := exists_of_nullable? hyear
      exact isInt32_of_int32? hyear
  · rcases Fields.eq_or_exists_of_orElse? hversion with rfl | ⟨_, hversion⟩
    · exact (by decide : 0 < twoPow 64)
    · exact lt_of_natBelow? hversion
  · rcases Fields.eq_or_exists_of_orElse? hentries with rfl | ⟨_, hentries⟩
    · cases hentry
    · obtain ⟨_, hentry⟩ := exists_of_mem_list? hentries hentry
      exact PeriodEntry.period_lt_of_ofJson? hentry

end Record

end PeriodSheet
