import Mathlib.Data.List.Basic
import Mathlib.Data.List.Nodup
import PeriodSheet.Proofs.Dependency.Reach
import PeriodSheet.Proofs.NameMap

/-!
# From nodes to fields

The nodes of a graph are ranks, and what is asked of it is asked of fields.  `FieldReferences` is
what a graph is built from: fields, each with the names that it refers to.  Where the fields are
distinct, references among nodes mirror those among fields (`FieldReferences.Distinct.mirrors`), and
so does everything that is told from them.
-/

namespace PeriodSheet

open Relation

/-! ### Elements by their places -/

section

variable {α : Type} (l : List α)

theorem filterMap_getElem?_range : (List.range l.length).filterMap (l[·]?) = l := by
  induction l with
  | nil => rfl
  | cons a rest ih =>
    have htail : (List.range rest.length).filterMap (fun i => (a :: rest)[i + 1]?) = rest := by
      simpa only [List.getElem?_cons_succ] using ih
    rw [List.length_cons, List.range_succ_eq_map, List.filterMap_cons_some List.getElem?_cons_zero,
      List.filterMap_map]
    exact congrArg (a :: ·) htail

/-- Places that are kept by what stands there give the elements that are kept. -/
theorem filterMap_getElem?_filter_range {p : Nat → Bool} {q : α → Bool}
    (h : ∀ {i a}, l[i]? = some a → p i = q a) :
    ((List.range l.length).filter p).filterMap (l[·]?) = l.filter q := by
  rw [List.filterMap_filter]
  conv_rhs => rw [← filterMap_getElem?_range l, List.filter_filterMap]
  refine List.filterMap_congr fun i hmem => ?_
  have hget := List.getElem?_eq_getElem (List.mem_range.1 hmem)
  rw [hget, h hget, Option.filter_some]

end

namespace DependencyGraph

/-- Among distinct names, the rank of a name is the place where it stands. -/
theorem rankIn?_eq_some {nodes : List FieldName}
    (hdistinct : nodes.Pairwise fun a b => a.same b = false) {name : FieldName} {rank : Nat} :
    rankIn? nodes name = some rank ↔ ∃ node, nodes[rank]? = some node ∧ node.same name = true := by
  rw [rankIn?, List.findIdx?_eq_some_iff_getElem]
  constructor
  · rintro ⟨hlt, hsame, -⟩
    exact ⟨nodes[rank], List.getElem?_eq_getElem hlt, hsame⟩
  · rintro ⟨node, hnode, hsame⟩
    obtain ⟨hlt, rfl⟩ := List.getElem?_eq_some_iff.1 hnode
    refine ⟨hlt, hsame, fun j hj hearlier => ?_⟩
    -- at an earlier place stands a name that differs from this one
    have hdiffer := List.pairwise_iff_getElem.1 hdistinct j rank (Nat.lt_trans hj hlt) hlt hj
    rw [FieldName.same_congr_right hsame, hearlier] at hdiffer
    cases hdiffer

end DependencyGraph

/-! ### Lists of references -/

/-- Fields, each with the names that it refers to. -/
abbrev FieldReferences := List (FieldName × List FieldName)

namespace FieldReferences

open DependencyGraph

/-- The fields, by rank. -/
def names (fields : FieldReferences) : List FieldName :=
  fields.map (·.1)

/-- No two of the fields have the same name. -/
def Distinct (fields : FieldReferences) : Prop :=
  fields.names.Pairwise fun a b => a.same b = false

instance (fields : FieldReferences) : Decidable fields.Distinct :=
  inferInstanceAs (Decidable (List.Pairwise _ _))

/-- A field refers to another one of the fields where one of its references means it. -/
def Refers (fields : FieldReferences) (field other : FieldName) : Prop :=
  ∃ references, (field, references) ∈ fields ∧ other ∈ fields.names ∧
    references.any (·.same other) = true

/-- A field reaches another one by one reference or more. -/
def Reaches (fields : FieldReferences) : FieldName → FieldName → Prop :=
  TransGen fields.Refers

/-- A field is blocked where it lies on a cycle or reaches one. -/
def Blocked (fields : FieldReferences) (field : FieldName) : Prop :=
  ∃ other, (field = other ∨ fields.Reaches field other) ∧ fields.Reaches other other

/-- The rank of a field is its place among the fields. -/
def rank (fields : FieldReferences) (field : FieldName) : Nat :=
  fields.names.idxOf field

variable {fields : FieldReferences}

theorem namesOf_ofReferences (fields : FieldReferences) (ranks : List Nat) :
    (ofReferences fields).namesOf ranks = ranks.filterMap (fields.names[·]?) :=
  rfl

/-- What is reached is one of the fields. -/
theorem mem_names_of_reaches {field other : FieldName} (h : fields.Reaches field other) :
    other ∈ fields.names := by
  cases h with
  | single href => exact href.choose_spec.2.1
  | tail _ href => exact href.choose_spec.2.1

theorem Distinct.nodup (hdistinct : fields.Distinct) : fields.names.Nodup := by
  refine List.Pairwise.imp (fun {a b} hdiffer => ?_) hdistinct
  rintro rfl
  rw [FieldName.same_refl] at hdiffer
  cases hdiffer

theorem getElem?_rank {field : FieldName} (h : field ∈ fields.names) :
    fields.names[fields.rank field]? = some field :=
  List.getElem?_idxOf h

theorem rank_lt {field : FieldName} (h : field ∈ fields.names) :
    fields.rank field < fields.names.length :=
  List.idxOf_lt_length_of_mem h

theorem Distinct.rank_of_getElem? (hdistinct : fields.Distinct) {field : FieldName} {place : Nat}
    (h : fields.names[place]? = some field) : fields.rank field = place := by
  obtain ⟨hlt, rfl⟩ := List.getElem?_eq_some_iff.1 h
  exact hdistinct.nodup.idxOf_getElem place hlt

/-- Fields of the same rank are the same. -/
theorem rank_inj {field other : FieldName} (hfield : field ∈ fields.names)
    (h : fields.rank field = fields.rank other) : field = other :=
  (List.idxOf_inj hfield).1 h

/-- **References among nodes mirror those among fields.** -/
theorem Distinct.mirrors (hdistinct : fields.Distinct) :
    Mirrors fields.names (ofReferences fields).Refers fields.Refers where
  target_lt hstep := (wellFormed_ofReferences fields).target_lt hstep
  mem_target := fun ⟨_, _, hmem, _⟩ => hmem
  iff {i j field other} hi hj := by
    obtain ⟨⟨name, references⟩, hplace, rfl⟩ : ∃ entry, fields[i]? = some entry ∧ entry.1 = field := by
      simpa [names] using hi
    obtain ⟨hlt, hentry⟩ := List.getElem?_eq_some_iff.1 hplace
    have hjlt : j < fields.length := by
      simpa [names] using (List.getElem?_eq_some_iff.1 hj).1
    -- a node refers to the ranks of its references
    rw [DependencyGraph.Refers, targetsOf_ofReferences fields hlt, hentry,
      List.mem_filter, List.mem_range, List.contains_iff_mem, List.mem_filterMap]
    constructor
    · rintro ⟨-, reference, hreference, hrank⟩
      obtain ⟨node, hnode, hsame⟩ := (rankIn?_eq_some hdistinct).1 hrank
      obtain rfl : node = other := Option.some.inj (hnode.symm.trans hj)
      exact ⟨references, List.mem_of_getElem? hplace, List.mem_of_getElem? hj,
        List.any_eq_true.2 ⟨reference, hreference, (FieldName.same_comm _ _).trans hsame⟩⟩
    · rintro ⟨others, hmem, -, hany⟩
      -- the field stands at one place, with its own references
      obtain ⟨place, hother⟩ := List.getElem?_of_mem hmem
      have hname : fields.names[place]? = some name := by
        rw [names, List.getElem?_map, hother]
        rfl
      obtain rfl : place = i :=
        (hdistinct.rank_of_getElem? hname).symm.trans (hdistinct.rank_of_getElem? hi)
      obtain rfl : others = references := by
        simpa using hother.symm.trans hplace
      obtain ⟨reference, hreference, hsame⟩ := List.any_eq_true.1 hany
      exact ⟨hjlt, reference, hreference, (rankIn?_eq_some hdistinct).2
        ⟨other, hj, (FieldName.same_comm _ _).trans hsame⟩⟩

section

variable (hdistinct : fields.Distinct) {field other : FieldName} (hfield : field ∈ fields.names)

include hdistinct hfield

theorem refers_rank_iff (hother : other ∈ fields.names) :
    (ofReferences fields).Refers (fields.rank field) (fields.rank other) ↔
      fields.Refers field other :=
  hdistinct.mirrors.iff (getElem?_rank hfield) (getElem?_rank hother)

theorem reaches_rank_iff (hother : other ∈ fields.names) :
    (ofReferences fields).Reaches (fields.rank field) (fields.rank other) ↔
      fields.Reaches field other :=
  hdistinct.mirrors.transGen.iff (getElem?_rank hfield) (getElem?_rank hother)

theorem blocked_rank_iff :
    (ofReferences fields).Blocked (fields.rank field) ↔ fields.Blocked field :=
  blocked_iff_exists_cycle.trans
    (hdistinct.mirrors.transGen.exists_cycle_iff (getElem?_rank hfield))

end

/-! ### Names and ranks -/

theorem mem_names_of_mem_namesOf {ranks : List Nat} {field : FieldName}
    (h : field ∈ (ofReferences fields).namesOf ranks) : field ∈ fields.names := by
  obtain ⟨place, -, hplace⟩ := List.mem_filterMap.1 h
  exact List.mem_of_getElem? hplace

theorem Distinct.mem_namesOf (hdistinct : fields.Distinct) {ranks : List Nat} {field : FieldName}
    (hfield : field ∈ fields.names) :
    field ∈ (ofReferences fields).namesOf ranks ↔ fields.rank field ∈ ranks := by
  rw [namesOf_ofReferences, List.mem_filterMap]
  constructor
  · rintro ⟨place, hmem, hplace⟩
    rwa [hdistinct.rank_of_getElem? hplace]
  · exact fun hmem => ⟨fields.rank field, hmem, getElem?_rank hfield⟩

/-- The ranks of the fields at some places are those places. -/
theorem Distinct.map_rank_namesOf (hdistinct : fields.Distinct) {ranks : List Nat}
    (hlt : ∀ place ∈ ranks, place < fields.names.length) :
    ((ofReferences fields).namesOf ranks).map fields.rank = ranks := by
  have hplace : ∀ place ∈ ranks, fields.names[place]?.map fields.rank = some place := by
    intro place hmem
    have hget := List.getElem?_eq_getElem (hlt place hmem)
    rw [hget, Option.map_some, hdistinct.rank_of_getElem? hget]
  rw [namesOf_ofReferences, List.map_filterMap, List.filterMap_congr hplace, List.filterMap_some]

/-- The fields at the ranks of some fields are those fields. -/
theorem namesOf_map_rank {chosen : List FieldName}
    (hmem : ∀ field ∈ chosen, field ∈ fields.names) :
    (ofReferences fields).namesOf (chosen.map fields.rank) = chosen := by
  rw [namesOf_ofReferences, List.filterMap_map]
  calc chosen.filterMap ((fields.names[·]?) ∘ fields.rank)
      = chosen.filterMap some :=
        List.filterMap_congr fun field h => getElem?_rank (hmem field h)
    _ = chosen := List.filterMap_some

end FieldReferences

/-! ### A budget

Its loan and its interest refer to each other, its reserve refers to itself and its rest lies behind
the loan.  References are spelled in either case, and one of them means no calculated field.
-/

namespace Budget

def net : FieldName := ⟨"Net", "net", by decide, by decide⟩

def loan : FieldName := ⟨"Loan", "loan", by decide, by decide⟩

def tax : FieldName := ⟨"Tax", "tax", by decide, by decide⟩

def gross : FieldName := ⟨"Gross", "gross", by decide, by decide⟩

def interest : FieldName := ⟨"Interest", "interest", by decide, by decide⟩

def reserve : FieldName := ⟨"Reserve", "reserve", by decide, by decide⟩

def rest : FieldName := ⟨"Rest", "rest", by decide, by decide⟩

def references : FieldReferences :=
  [ (net, [gross, tax]),
    (loan, [interest]),
    (tax, [⟨"GROSS", "gross", by decide, by decide⟩]),
    (gross, [⟨"Hours", "hours", by decide, by decide⟩]),
    (interest, [gross, loan]),
    (reserve, [⟨"RESERVE", "reserve", by decide, by decide⟩, net]),
    (rest, [loan, net]) ]

end Budget

end PeriodSheet
