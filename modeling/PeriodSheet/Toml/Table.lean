import PeriodSheet.Json.Basic

/-!
# Tables of a TOML document

A document is a tree of tables that its lines build up one by one.  A table may be opened by a
header once, and by the path of a longer header any number of times.  A key with dots makes tables
on its way; it may also go through those that no header opened, and through the last table of an
array, but sets its last part only in a table that keys with dots made.  Values, inline tables among
them, are never extended.
-/

namespace PeriodSheet.Toml

/-- How a table came to be. -/
inductive Origin where
  /-- As a part of the path of a longer header. -/
  | path
  /-- By a header of its own. -/
  | header
  /-- By a key with dots. -/
  | dotted
deriving DecidableEq

/-- What a key of a table holds. -/
inductive Node where
  | value (value : Json)
  | table (origin : Origin) (entries : List (String × Node))
  /-- The tables of an array, each with its entries. -/
  | tables (items : List (List (String × Node)))

/-- The entries of a table in the order of their first mention. -/
abbrev Entries := List (String × Node)

namespace Entries

/-- Changes what a key holds, or adds the key. -/
def alter? (key : String) (change : Option Node → Option Node) (entries : Entries) :
    Option Entries :=
  match entries with
  | [] => (change none).map fun node => [(key, node)]
  | (other, node) :: rest =>
    if other = key then (change (some node)).map fun node => (other, node) :: rest
    else (alter? key change rest).map fun rest => (other, node) :: rest

/-- Changes the last of some tables. -/
def alterLast? (change : Entries → Option Entries) (items : List Entries) : Option (List Entries) :=
  match items with
  | [] => none
  | [last] => (change last).map fun last => [last]
  | first :: rest => (alterLast? change rest).map fun rest => first :: rest

/-- Changes the entries of the table at the path of a header, making the tables that are missing. -/
def alterAt? (path : List String) (change : Entries → Option Entries) (entries : Entries) :
    Option Entries :=
  match path with
  | [] => change entries
  | key :: path =>
    alter? key (fun
      | none => (alterAt? path change []).map (.table .path)
      | some (.table origin inner) => (alterAt? path change inner).map (.table origin)
      | some (.tables items) => (alterLast? (alterAt? path change) items).map .tables
      | some (.value _) => none) entries

def openTable? (key : String) : Entries → Option Entries :=
  alter? key fun
    | none => some (.table .header [])
    -- a table that only a longer header mentioned may still be opened, once
    | some (.table .path inner) => some (.table .header inner)
    | _ => none

/-- Adds a table to the array of a header. -/
def pushTable? (key : String) : Entries → Option Entries :=
  alter? key fun
    | none => some (.tables [[]])
    | some (.tables items) => some (.tables (items ++ [[]]))
    | _ => none

/-- Sets the value of a key with dots, making the tables that are missing.  The last part of the key
is set only where the table is `settable`. -/
def set? (settable : Bool) (keys : List String) (value : Json) (entries : Entries) :
    Option Entries :=
  match keys with
  | [] => none
  | [key] =>
    alter? key (fun
      | none => if settable then some (.value value) else none
      | some _ => none) entries
  | key :: keys =>
    alter? key (fun
      | none => (set? true keys value []).map (.table .dotted)
      -- what a header opened is closed to keys with dots
      | some (.table .header _) => none
      | some (.table origin inner) =>
        (set? (origin == .dotted) keys value inner).map (.table origin)
      | some (.tables items) => (alterLast? (set? false keys value) items).map .tables
      | some (.value _) => none) entries

end Entries

mutual

/-- What a key holds, as a value. -/
def Node.toJson : Node → Json
  | .value value => value
  | .table _ entries => .record (membersOf entries)
  | .tables items => .list (itemsOf items)

def membersOf : List (String × Node) → List (String × Json)
  | [] => []
  | (key, node) :: rest => (key, node.toJson) :: membersOf rest

def itemsOf : List (List (String × Node)) → List Json
  | [] => []
  | entries :: rest => .record (membersOf entries) :: itemsOf rest

end

end PeriodSheet.Toml
