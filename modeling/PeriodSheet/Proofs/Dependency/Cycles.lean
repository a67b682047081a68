import PeriodSheet.Proofs.Dependency.Sorting

/-!
# The cycles of fields

The cycles that are listed for a list of fields with their references.  To reach one another is an
equivalence among the fields that reach themselves; each of its classes is listed once, by rank, at
the place of its lowest field (`DependencyGraph.cycles_ofReferences`).
-/

namespace PeriodSheet

namespace DependencyGraph

variable {graph : DependencyGraph}

/-! ### Cycles of nodes -/

theorem cycleRanks_eq (graph : DependencyGraph) :
    graph.cycleRanks = graph.ranks.filterMap fun rank =>
      if (graph.cycleOf rank).head? = some rank then some (graph.cycleOf rank) else none :=
  rfl

/-- The first node of a cycle is the lowest. -/
theorem head_le_of_mem_cycleOf {first node other : Nat}
    (hhead : (graph.cycleOf node).head? = some first) (hother : other ∈ graph.cycleOf node) :
    first ≤ other := by
  have hascending : (graph.cycleOf node).Pairwise (· < ·) := by
    rw [cycleOf_eq]
    exact List.pairwise_lt_range.filter _
  obtain ⟨rest, hcycle⟩ := List.head?_eq_some_iff.1 hhead
  rw [hcycle] at hascending hother
  rcases List.mem_cons.1 hother with rfl | hmem
  · exact Nat.le_refl other
  · exact Nat.le_of_lt ((List.pairwise_cons.1 hascending).1 other hmem)

/-- Cycles that share a node are the same. -/
theorem cycleOf_eq_of_mem (hwf : graph.WellFormed) {a b node : Nat} (ha : node ∈ graph.cycleOf a)
    (hb : node ∈ graph.cycleOf b) : graph.cycleOf a = graph.cycleOf b := by
  obtain ⟨hto, hfrom⟩ := (mem_cycleOf hwf).1 ha
  obtain ⟨hto', hfrom'⟩ := (mem_cycleOf hwf).1 hb
  exact (cycleOf_congr hwf hto hfrom).trans (cycleOf_congr hwf hfrom' hto')

/-- Cycles that are listed one after the other share no node, and stand in the order of their first
nodes. -/
theorem pairwise_cycleRanks (hwf : graph.WellFormed) :
    graph.cycleRanks.Pairwise fun a b => a.Disjoint b ∧ ∃ first ∈ a, ∀ node ∈ b, first < node := by
  rw [cycleRanks_eq, List.pairwise_filterMap]
  refine List.pairwise_lt_range.imp fun {i j} hlt a ha b hb => ?_
  obtain ⟨hi, rfl⟩ := Option.ite_none_right_eq_some.1 ha |>.imp_right Option.some.inj
  obtain ⟨hj, rfl⟩ := Option.ite_none_right_eq_some.1 hb |>.imp_right Option.some.inj
  refine ⟨fun node ha hb => ?_, i, List.mem_of_head? hi, fun node hmem => ?_⟩
  · -- a cycle has one first node
    rw [cycleOf_eq_of_mem hwf ha hb, hj] at hi
    have := Option.some.inj hi
    omega
  · have := head_le_of_mem_cycleOf hj hmem
    omega

end DependencyGraph

namespace FieldReferences

open DependencyGraph

variable {fields : FieldReferences}

/-! ### Cycles of fields -/

/-- A cycle: the fields that reach, and are reached by, one that reaches itself, by rank. -/
structure IsCycle (fields : FieldReferences) (cycle : List FieldName) : Prop where
  sublist : cycle.Sublist fields.names
  mem_iff : ∃ field, fields.Reaches field field ∧
    ∀ other, other ∈ cycle ↔ fields.Reaches field other ∧ fields.Reaches other field

/-- The cycle that is found for a field. -/
def cycleOf (fields : FieldReferences) (field : FieldName) : List FieldName :=
  (ofReferences fields).namesOf ((ofReferences fields).cycleOf (fields.rank field))

theorem sublist_cycleOf (fields : FieldReferences) (field : FieldName) :
    (fields.cycleOf field).Sublist fields.names := by
  rw [cycleOf, cycleOf_eq, namesOf_ofReferences]
  have hall := filterMap_getElem?_range fields.names
  conv_rhs => rw [← hall]
  exact List.filter_sublist.filterMap _

section

variable (hdistinct : fields.Distinct)

include hdistinct

theorem mem_cycleOf {field other : FieldName} (hfield : field ∈ fields.names) :
    other ∈ fields.cycleOf field ↔ fields.Reaches field other ∧ fields.Reaches other field := by
  have hwf := wellFormed_ofReferences fields
  have hmem (hother : other ∈ fields.names) :
      other ∈ fields.cycleOf field ↔ fields.Reaches field other ∧ fields.Reaches other field := by
    rw [cycleOf, hdistinct.mem_namesOf hother, DependencyGraph.mem_cycleOf hwf,
      reaches_rank_iff hdistinct hfield hother, reaches_rank_iff hdistinct hother hfield]
  constructor
  · exact fun h => (hmem (mem_names_of_mem_namesOf h)).1 h
  · exact fun h => (hmem (mem_names_of_reaches h.1)).2 h

theorem isCycle_cycleOf {field : FieldName} (h : fields.Reaches field field) :
    fields.IsCycle (fields.cycleOf field) where
  sublist := sublist_cycleOf fields field
  mem_iff := ⟨field, h, fun _ => mem_cycleOf hdistinct (mem_names_of_reaches h)⟩

/-- The cycles that are listed are those of the fields that reach themselves. -/
theorem mem_cycles {cycle : List FieldName} :
    cycle ∈ (ofReferences fields).cycles ↔
      ∃ field, fields.Reaches field field ∧ cycle = fields.cycleOf field := by
  have hwf := wellFormed_ofReferences fields
  rw [DependencyGraph.cycles, List.mem_map]
  constructor
  · rintro ⟨ranks, hranks, rfl⟩
    obtain ⟨node, hself, rfl⟩ := (mem_cycleRanks hwf).1 hranks
    have hplace := List.getElem?_eq_getElem (hwf.reached_lt hself)
    refine ⟨_, (hdistinct.mirrors.transGen.iff hplace hplace).1 hself, ?_⟩
    rw [cycleOf, hdistinct.rank_of_getElem? hplace]
  · rintro ⟨field, hself, rfl⟩
    have hfield := mem_names_of_reaches hself
    refine ⟨_, (mem_cycleRanks hwf).2 ⟨fields.rank field, ?_, rfl⟩, rfl⟩
    exact (reaches_rank_iff hdistinct hfield hfield).2 hself

/-- The fields on the cycles are those that reach themselves. -/
theorem exists_mem_cycles {field : FieldName} :
    (∃ cycle ∈ (ofReferences fields).cycles, field ∈ cycle) ↔ fields.Reaches field field := by
  constructor
  · rintro ⟨cycle, hcycle, hmem⟩
    obtain ⟨first, hself, rfl⟩ := (mem_cycles hdistinct).1 hcycle
    obtain ⟨hto, hfrom⟩ := (mem_cycleOf hdistinct (mem_names_of_reaches hself)).1 hmem
    exact hfrom.trans hto
  · intro hself
    exact ⟨fields.cycleOf field, (mem_cycles hdistinct).2 ⟨field, hself, rfl⟩,
      (mem_cycleOf hdistinct (mem_names_of_reaches hself)).2 ⟨hself, hself⟩⟩

theorem cycles_eq_nil_iff :
    (ofReferences fields).cycles = [] ↔ ∀ field, ¬ fields.Reaches field field := by
  rw [List.eq_nil_iff_forall_not_mem]
  constructor
  · intro hnone field hself
    exact hnone _ ((mem_cycles hdistinct).2 ⟨field, hself, rfl⟩)
  · intro hacyclic cycle hcycle
    obtain ⟨field, hself, -⟩ := (mem_cycles hdistinct).1 hcycle
    exact hacyclic field hself

theorem pairwise_cycles :
    (ofReferences fields).cycles.Pairwise fun a b =>
      a.Disjoint b ∧ ∃ first ∈ a, ∀ other ∈ b, fields.rank first < fields.rank other := by
  have hwf := wellFormed_ofReferences fields
  rw [DependencyGraph.cycles, List.pairwise_map]
  refine (pairwise_cycleRanks hwf).imp_of_mem fun {a b} ha _ ⟨hdisjoint, hfirst⟩ => ?_
  -- a field is on a cycle where its rank is
  have hrank {ranks : List Nat} {field : FieldName}
      (hmem : field ∈ (ofReferences fields).namesOf ranks) : fields.rank field ∈ ranks :=
    (hdistinct.mem_namesOf (mem_names_of_mem_namesOf hmem)).1 hmem
  refine ⟨fun field hfield hfield' => hdisjoint (hrank hfield) (hrank hfield'), ?_⟩
  obtain ⟨first, hmem, hlowest⟩ := hfirst
  obtain ⟨node, -, rfl⟩ := (mem_cycleRanks hwf).1 ha
  have hplace := List.getElem?_eq_getElem
    (hwf.reached_lt ((DependencyGraph.mem_cycleOf hwf).1 hmem).1)
  refine ⟨_, List.mem_filterMap.2 ⟨first, hmem, hplace⟩, fun other hother => ?_⟩
  rw [hdistinct.rank_of_getElem? hplace]
  exact hlowest _ (hrank hother)

/-- What remains refers to something that remains. -/
theorem exists_refers_of_mem_remaining {error : CycleError}
    (hsort : (ofReferences fields).sort = .error error) {field : FieldName}
    (hfield : field ∈ error.remaining) : ∃ other ∈ error.remaining, fields.Refers field other := by
  rw [sort_eq] at hsort
  split at hsort
  · cases hsort
  · obtain rfl := Except.error.inj hsort
    have hblocked := ((mem_unordered hdistinct).1 hfield).2
    obtain ⟨other, href, hblocked⟩ := exists_cycle_iff_exists_step.1 hblocked
    have hother := hdistinct.mirrors.mem_target href
    exact ⟨other, (mem_unordered hdistinct).2 ⟨hother, hblocked⟩, href⟩

end

end FieldReferences

namespace DependencyGraph

open FieldReferences

/-- **The cycles are the groups of fields that reach one another.**

* Each of them has, by rank, the fields that reach one that reaches itself and are reached by it.
* No two share a field, and they stand in the order of their lowest fields.
* Together they have all fields that reach themselves.
* There is none where sorting orders all fields; otherwise each field that remains refers to one
  that remains, also where it is on no cycle. -/
theorem cycles_ofReferences (fields : FieldReferences) (hdistinct : fields.Distinct) :
    let graph := ofReferences fields
    (∀ cycle ∈ graph.cycles, fields.IsCycle cycle) ∧
    graph.cycles.Pairwise List.Disjoint ∧
    graph.cycles.Pairwise
      (fun a b => ∃ first ∈ a, ∀ other ∈ b, fields.rank first < fields.rank other) ∧
    (∀ field, (∃ cycle ∈ graph.cycles, field ∈ cycle) ↔ fields.Reaches field field) ∧
    (graph.cycles = [] ↔ ∃ order, graph.sort = .ok order) ∧
    ∀ error, graph.sort = .error error →
      ∀ field ∈ error.remaining, ∃ other ∈ error.remaining, fields.Refers field other := by
  intro graph
  refine ⟨fun cycle hcycle => ?_, (pairwise_cycles hdistinct).imp And.left,
    (pairwise_cycles hdistinct).imp And.right, fun field => exists_mem_cycles hdistinct, ?_,
    fun error hsort field => exists_refers_of_mem_remaining hdistinct hsort⟩
  · obtain ⟨field, hself, rfl⟩ := (mem_cycles hdistinct).1 hcycle
    exact isCycle_cycleOf hdistinct hself
  · exact (cycles_eq_nil_iff hdistinct).trans (sort_eq_ok_iff hdistinct).symm

/-- The budget has two cycles, and what lies behind them is on neither. -/
theorem cycles_ofReferences_budget :
    Budget.references.Distinct ∧
      (ofReferences Budget.references).cycles =
        [[Budget.loan, Budget.interest], [Budget.reserve]] ∧
      Budget.references.IsCycle [Budget.loan, Budget.interest] ∧
      ¬ Budget.references.Reaches Budget.rest Budget.rest := by
  have hdistinct : Budget.references.Distinct := by decide
  have hcycles : (ofReferences Budget.references).cycles =
      [[Budget.loan, Budget.interest], [Budget.reserve]] := by
    decide +kernel
  obtain ⟨hcycle, -, -, hmem, -⟩ := cycles_ofReferences Budget.references hdistinct
  rw [hcycles] at hcycle hmem
  refine ⟨hdistinct, hcycles, hcycle _ List.mem_cons_self, ?_⟩
  rw [← hmem]
  decide

end DependencyGraph

end PeriodSheet
