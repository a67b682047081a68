import PeriodSheet.Json.Reader
import PeriodSheet.Schema.Stored
import PeriodSheet.Toml.Reader
import PeriodSheet.Toml.Writer

/-!
# Catalogs

A catalog holds the definitions of activities in ascending order of their ids, each id once.  It is
read from a document, as JSON or as TOML, and finds an activity by its id or by its name.
-/

namespace PeriodSheet

open Text

/-- Activities in ascending order of their ids. -/
structure Catalog where
  activities : List Activity
  ascending : activities.Pairwise fun a b => a.id < b.id

/-- Why a catalog cannot be built from a document. -/
inductive CatalogError where
  | notToml
  | notJson
  | duplicateId (id : Int)
deriving DecidableEq

/-- The wording of the error about an id that two activities have. -/
def CatalogError.duplicateMessage (id : Int) : String :=
  "activity id " ++ ofInt id ++ " is defined twice"

namespace Catalog

def empty : Catalog := ⟨[], List.Pairwise.nil⟩

instance : Inhabited Catalog := ⟨empty⟩

/-! ### Writing into a catalog -/

/-- Puts an activity at the place of its id, in place of another one with that id. -/
def insertActivity (activity : Activity) : List Activity → List Activity
  | [] => [activity]
  | other :: rest =>
    if activity.id < other.id then activity :: other :: rest
    else if activity.id = other.id then activity :: rest
    else other :: insertActivity activity rest

theorem mem_insertActivity {activity a : Activity} {activities : List Activity}
    (h : a ∈ insertActivity activity activities) : a = activity ∨ a ∈ activities := by
  induction activities with
  | nil => simp_all [insertActivity]
  | cons other rest ih => grind [insertActivity]

theorem ascending_insertActivity (activity : Activity) {activities : List Activity}
    (h : activities.Pairwise fun a b => a.id < b.id) :
    (insertActivity activity activities).Pairwise fun a b => a.id < b.id := by
  induction activities with
  | nil => simp [insertActivity]
  | cons other rest ih =>
    obtain ⟨hhead, hrest⟩ := List.pairwise_cons.1 h
    unfold insertActivity
    split
    · rename_i hlt
      refine List.pairwise_cons.2 ⟨fun a ha => ?_, h⟩
      rcases List.mem_cons.1 ha with rfl | ha
      · exact hlt
      · exact Int.lt_trans hlt (hhead a ha)
    · split
      · rename_i heq
        exact List.pairwise_cons.2 ⟨fun a ha => heq ▸ hhead a ha, hrest⟩
      · rename_i hlt hne
        refine List.pairwise_cons.2 ⟨fun a ha => ?_, ih hrest⟩
        rcases mem_insertActivity ha with rfl | ha
        · omega
        · exact hhead a ha

/-- Adds an activity, or replaces the one with its id. -/
def insert (catalog : Catalog) (activity : Activity) : Catalog :=
  ⟨insertActivity activity catalog.activities, ascending_insertActivity activity catalog.ascending⟩

/-! ### Looking activities up -/

def get? (catalog : Catalog) (id : Int) : Option Activity :=
  catalog.activities.find? (·.id == id)

/-- The first activity of a name, in any case. -/
def named? (catalog : Catalog) (name : String) : Option Activity :=
  let key := lower (trim name)
  catalog.activities.find? fun activity => lower activity.name == key

/-- The id that a text is, where it fits 64 bits. -/
def idOf? (text : String) : Option Int :=
  (intOfChars? (trim text).toList).filter fun n =>
    -(twoPow 63 : Int) ≤ n && n < (twoPow 63 : Int)

/-- The activity with the id or, failing that, the name that a text is. -/
def find? (catalog : Catalog) (idOrName : String) : Option Activity :=
  (idOf? idOrName).bind catalog.get? <|> catalog.named? idOrName

def toList (catalog : Catalog) : List Activity :=
  catalog.activities

def size (catalog : Catalog) : Nat :=
  catalog.activities.length

/-- Whether two catalogs hold activities that are defined alike. -/
def same (a b : Catalog) : Bool :=
  a.activities.map (·.canonical) == b.activities.map (·.canonical)

/-- The issues of all activities, each with its activity. -/
def check (catalog : Catalog) : List (Activity × Issue) :=
  catalog.activities.flatMap fun activity => activity.check.map fun issue => (activity, issue)

/-! ### Documents -/

/-- The catalog of some activities, no two of which may have one id. -/
def ofList (activities : List Activity) : Except CatalogError Catalog :=
  activities.foldlM (fun catalog activity =>
    if (catalog.get? activity.id).isSome then .error (.duplicateId activity.id)
    else .ok (catalog.insert activity)) empty

def activitiesOf? (medium : Json.Medium) (document : Json) : Option (List Activity) := do
  let m ← document.fields? medium [["activities"]]
  m.orElse? "activities" [] (Json.list? (Activity.ofJson? medium))

def ofJsonText (text : String) : Except CatalogError Catalog :=
  match (Json.parse? text).bind (activitiesOf? .json) with
  | none => .error .notJson
  | some activities => ofList activities

def ofTomlText (text : String) : Except CatalogError Catalog :=
  match (Toml.parse? text).bind (activitiesOf? .toml) with
  | none => .error .notToml
  | some activities => ofList activities

def toTomlText (catalog : Catalog) : String :=
  Toml.document [("activities", .ofList Activity.toJson catalog.activities)]

end Catalog

end PeriodSheet
