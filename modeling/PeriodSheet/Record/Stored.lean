import PeriodSheet.Record
import PeriodSheet.Schema.Stored

/-!
# Records as stored data

How records are written as JSON values and read back.
-/

namespace PeriodSheet

namespace NameSet

/-- Reads a set of names; of several spellings of one name the first is kept. -/
def ofJson? (value : Json) : Option NameSet := do
  let names ← value.list? FieldName.ofJson?
  return NameMap.ofList (names.map (·, ()))

/-- A set of names, as a list in ascending order of the keys. -/
def toJson (set : NameSet) : Json :=
  .ofList FieldName.toJson set.names

end NameSet

namespace PeriodEntry

def ofJson? (value : Json) : Option PeriodEntry := do
  let m ← value.fields? .json [["period"], ["raw"], ["computed"], ["carried"]]
  return {
    period := ← m.required? "period" Json.nat32?
    raw := ← m.orElse? "raw" .empty (NameMap.ofJson? Json.text?)
    computed := ← m.orElse? "computed" .empty (NameMap.ofJson? Json.text?)
    carried := ← m.orElse? "carried" .empty NameSet.ofJson? }

def toJson (entry : PeriodEntry) : Json :=
  .ofMembers [
    some ("period", .ofNat entry.period),
    some ("raw", entry.raw.toJson .text),
    some ("computed", entry.computed.toJson .text),
    Field.listMember "carried" FieldName.toJson entry.carried.names]

end PeriodEntry

def RecordKey.ofJson? (value : Json) : Option RecordKey := do
  let m ← value.fields? .json [["client_id"], ["activity_id"], ["fiscal_year"]]
  return {
    client := ← m.required? "client_id" Json.int64?
    activity := ← m.required? "activity_id" Json.int64?
    fiscalYear := ← m.optional? "fiscal_year" Json.int32? }

namespace Record

def ofJson? (value : Json) : Option Record := do
  let m ← value.fields? .json
    [["client_id"], ["activity_id"], ["fiscal_year"], ["version"], ["periods"]]
  return {
    client := ← m.required? "client_id" Json.int64?
    activity := ← m.required? "activity_id" Json.int64?
    fiscalYear := ← m.orElse? "fiscal_year" none (Json.nullable? Json.int32?)
    version := ← m.orElse? "version" 0 Json.nat64?
    entries := ← m.orElse? "periods" [] (Json.list? PeriodEntry.ofJson?) }

def toJson (record : Record) : Json :=
  .ofMembers [
    some ("client_id", .integer record.client),
    some ("activity_id", .integer record.activity),
    Field.optionMember "fiscal_year" .integer record.fiscalYear,
    some ("version", .ofNat record.version),
    some ("periods", .ofList PeriodEntry.toJson record.entries)]

end Record

end PeriodSheet
