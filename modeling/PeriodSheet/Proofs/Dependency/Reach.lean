import Mathlib.Tactic.ByContra
import PeriodSheet.Dependency.Cycle
import PeriodSheet.Proofs.Paths

/-!
# Reaching nodes

What it means that one node of a graph reaches another, and that the search for what a node reaches
finds exactly that.

* **`Refers`** and **`Reaches`** are an edge, and a path of one edge or more.
* **`Blocked`** nodes lie on a cycle or behind one.
* **`mem_reachableFrom`**: the rounds of the search suffice, since each of them but the last brings
  a new node.
* **`mem_cycleRanks`**: the cycles that are listed are the groups of nodes that reach one another.
-/

namespace PeriodSheet.DependencyGraph

open Relation

/-! ### Edges and paths -/

def Refers (graph : DependencyGraph) (source target : Nat) : Prop :=
  target ∈ graph.targetsOf source

instance (graph : DependencyGraph) (source target : Nat) :
    Decidable (graph.Refers source target) :=
  inferInstanceAs (Decidable (target ∈ graph.targetsOf source))

/-- A node reaches another one by one reference or more. -/
def Reaches (graph : DependencyGraph) : Nat → Nat → Prop :=
  TransGen graph.Refers

/-- A node is blocked where it lies on a cycle or reaches one. -/
def Blocked (graph : DependencyGraph) (node : Nat) : Prop :=
  ∃ other, ReflTransGen graph.Refers node other ∧ graph.Reaches other other

/-- A graph is well formed where its edges lead from nodes to nodes and each is listed once. -/
structure WellFormed (graph : DependencyGraph) : Prop where
  source_lt : ∀ {source target}, graph.Refers source target → source < graph.size
  target_lt : ∀ {source target}, graph.Refers source target → target < graph.size
  ascending : ∀ source, (graph.targetsOf source).Pairwise (· < ·)

theorem targetsOf_ofReferences (fields : List (FieldName × List FieldName)) {source : Nat}
    (h : source < fields.length) :
    (ofReferences fields).targetsOf source =
      (List.range fields.length).filter fun rank =>
        (fields[source].2.filterMap (rankIn? (fields.map (·.1)))).contains rank := by
  simp [targetsOf, ofReferences, h]

theorem wellFormed_ofReferences (fields : List (FieldName × List FieldName)) :
    (ofReferences fields).WellFormed := by
  have hsize : (ofReferences fields).size = fields.length := List.length_map _
  have hnone : ∀ source, fields.length ≤ source → (ofReferences fields).targetsOf source = [] := by
    intro source hle
    simp [targetsOf, ofReferences, hle]
  refine ⟨fun {source target} h => ?_, fun {source target} h => ?_, fun source => ?_⟩
  · rw [hsize]
    by_contra hge
    rw [Refers, hnone source (Nat.le_of_not_lt hge)] at h
    cases h
  · rw [hsize]
    by_cases hlt : source < fields.length
    · rw [Refers, targetsOf_ofReferences fields hlt] at h
      exact List.mem_range.1 (List.mem_filter.1 h).1
    · rw [Refers, hnone source (Nat.le_of_not_lt hlt)] at h
      cases h
  · by_cases hlt : source < fields.length
    · rw [targetsOf_ofReferences fields hlt]
      exact List.pairwise_lt_range.filter _
    · rw [hnone source (Nat.le_of_not_lt hlt)]
      exact List.Pairwise.nil

variable {graph : DependencyGraph}

theorem WellFormed.reached_lt (hwf : graph.WellFormed) {a b : Nat} (h : graph.Reaches a b) :
    b < graph.size := by
  cases h with
  | single h => exact hwf.target_lt h
  | tail _ h => exact hwf.target_lt h

theorem WellFormed.reaching_lt (hwf : graph.WellFormed) {a b : Nat} (h : graph.Reaches a b) :
    a < graph.size := by
  obtain ⟨c, hac, -⟩ := TransGen.head'_iff.1 h
  exact hwf.source_lt hac

theorem Blocked.of_reaches_self {node : Nat} (h : graph.Reaches node node) : graph.Blocked node :=
  ⟨node, .refl, h⟩

theorem blocked_iff_exists_cycle {node : Nat} :
    graph.Blocked node ↔
      ∃ other, (node = other ∨ graph.Reaches node other) ∧ graph.Reaches other other := by
  refine exists_congr fun other => and_congr_left fun _ => ?_
  rw [reflTransGen_iff_eq_or_transGen, eq_comm]
  rfl

theorem blocked_iff_exists_target {node : Nat} :
    graph.Blocked node ↔ ∃ target, graph.Refers node target ∧ graph.Blocked target := by
  simp only [blocked_iff_exists_cycle]
  exact exists_cycle_iff_exists_step

/-! ### The search -/

/-- The nodes that are not among some. -/
def missing (graph : DependencyGraph) (seen : List Nat) : List Nat :=
  graph.ranks.filter (!seen.contains ·)

theorem mem_missing {seen : List Nat} {node : Nat} :
    node ∈ graph.missing seen ↔ node < graph.size ∧ node ∉ seen := by
  simp [missing, ranks]

theorem length_missing_lt {seen next : List Nat} {node : Nat} (hmem : node ∈ next)
    (hlt : node < graph.size) (hnew : node ∉ seen) :
    (graph.missing (seen ++ next)).length < (graph.missing seen).length := by
  -- the nodes that stay missing are filtered out of those that were
  have hfilter : graph.missing (seen ++ next) =
      (graph.missing seen).filter (!next.contains ·) := by
    rw [missing, missing, List.filter_filter]
    refine List.filter_congr fun rank _ => ?_
    simp [Bool.and_comm]
  rw [hfilter, List.length_filter_lt_length_iff_exists]
  exact ⟨node, mem_missing.2 ⟨hlt, hnew⟩, by simpa using hmem⟩

/-- The search finds what is reached, by induction on the rounds that are left.  What was seen is
reached, what it refers to was seen too unless it is still on the frontier, and there are as many
rounds left as nodes are missing. -/
theorem mem_spread (hwf : graph.WellFormed) {start rounds : Nat} {frontier seen : List Nat}
    (hsound : ∀ node ∈ seen, graph.Reaches start node)
    (hfrontier : ∀ node ∈ frontier, node = start ∨ node ∈ seen)
    (hclosed : ∀ node, node = start ∨ node ∈ seen → node ∉ frontier →
      ∀ target, graph.Refers node target → target ∈ seen)
    (hrounds : (graph.missing seen).length ≤ rounds) {node : Nat} :
    node ∈ graph.spread rounds frontier seen ↔ graph.Reaches start node := by
  induction rounds generalizing frontier seen with
  | zero =>
    refine ⟨hsound node, fun hreach => ?_⟩
    -- with no round left no node is missing
    by_contra hnot
    have hmissing : node ∈ graph.missing seen := mem_missing.2 ⟨hwf.reached_lt hreach, hnot⟩
    have hpos := List.length_pos_of_mem hmissing
    omega
  | succ rounds ih =>
    -- what the round finds: targets of the frontier that were not seen
    have hnext : ∀ x, x ∈ ((frontier.flatMap graph.targetsOf).eraseDups).filter
        (!seen.contains ·) ↔ (∃ y ∈ frontier, graph.Refers y x) ∧ x ∉ seen := by
      intro x
      simp [Refers]
    unfold spread
    dsimp only
    generalize ((frontier.flatMap graph.targetsOf).eraseDups).filter (!seen.contains ·) = next
      at hnext
    split
    · rename_i hempty
      rw [List.isEmpty_iff] at hempty
      subst hempty
      refine ⟨hsound node, fun hreach => ?_⟩
      -- nothing new on the frontier, so that what was seen is closed
      have hseen : ∀ x, x = start ∨ x ∈ seen → ∀ y, graph.Refers x y → y ∈ seen := by
        intro x hx y hxy
        by_cases hfront : x ∈ frontier
        · by_contra hy
          have := (hnext y).2 ⟨⟨x, hfront, hxy⟩, hy⟩
          cases this
        · exact hclosed x hx hfront y hxy
      clear ih
      induction hreach with
      | single h => exact hseen start (.inl rfl) _ h
      | tail _ h hmem => exact hseen _ (.inr hmem) _ h
    · rename_i hnonempty
      -- the new nodes are reached and become the frontier, and one of them was missing
      obtain ⟨x, hx⟩ := List.exists_mem_of_ne_nil next (by simpa using hnonempty)
      have hreached : ∀ x ∈ next, graph.Reaches start x := by
        intro x hx
        obtain ⟨⟨y, hy, hyx⟩, -⟩ := (hnext x).1 hx
        rcases hfrontier y hy with rfl | hy
        · exact .single hyx
        · exact .tail (hsound y hy) hyx
      refine ih (fun y hy => ?_) (fun y hy => .inr (List.mem_append_right seen hy))
        (fun y hy hfront z hyz => ?_) ?_
      · rcases List.mem_append.1 hy with hy | hy
        · exact hsound y hy
        · exact hreached y hy
      · have hold : y = start ∨ y ∈ seen := by
          rcases hy with hy | hy
          · exact .inl hy
          · exact .inr ((List.mem_append.1 hy).resolve_right hfront)
        by_cases hz : z ∈ seen
        · exact List.mem_append_left next hz
        · by_cases hyfront : y ∈ frontier
          · exact List.mem_append_right seen ((hnext z).2 ⟨⟨y, hyfront, hyz⟩, hz⟩)
          · exact absurd (hclosed y hold hyfront z hyz) hz
      · have hlt := length_missing_lt hx (hwf.reached_lt (hreached x hx)) ((hnext x).1 hx).2
        omega

/-- **What the search from a node finds is what the node reaches.** -/
theorem mem_reachableFrom (hwf : graph.WellFormed) {start node : Nat} :
    node ∈ graph.reachableFrom start ↔ graph.Reaches start node := by
  refine mem_spread hwf (fun x hx => ?_) (fun x hx => ?_) (fun x hx hfront => ?_) ?_
  · cases hx
  · exact .inl (List.mem_singleton.1 hx)
  · rcases hx with rfl | hx
    · exact absurd (List.mem_singleton_self x) hfront
    · cases hx
  · exact Nat.le_trans (List.length_filter_le _ _) (Nat.le_of_eq List.length_range)

/-! ### Cycles -/

/-- The cycle of a node: the nodes that it reaches and that reach it, ascending. -/
def cycleOf (graph : DependencyGraph) (node : Nat) : List Nat :=
  cycleIn (graph.ranks.map graph.reachableFrom) node

/-- The cycle of a node is filtered out of all nodes. -/
theorem cycleOf_eq (graph : DependencyGraph) (node : Nat) :
    graph.cycleOf node = graph.ranks.filter fun other =>
      (((graph.ranks.map graph.reachableFrom)[node]?).getD []).contains other &&
        (((graph.ranks.map graph.reachableFrom)[other]?).getD []).contains node := by
  have hlength : (graph.ranks.map graph.reachableFrom).length = graph.size := by
    rw [List.length_map, ranks, List.length_range]
  rw [cycleOf, cycleIn, hlength]
  rfl

theorem contains_reach (hwf : graph.WellFormed) {a b : Nat} :
    (((graph.ranks.map graph.reachableFrom)[a]?).getD []).contains b = true ↔
      graph.Reaches a b := by
  by_cases hlt : a < graph.size
  · have hget : (graph.ranks.map graph.reachableFrom)[a]? = some (graph.reachableFrom a) := by
      rw [List.getElem?_map, ranks, List.getElem?_range hlt]
      rfl
    rw [hget, Option.getD_some, List.contains_iff_mem, mem_reachableFrom hwf]
  · -- beyond the nodes nothing is looked up, and nothing is reached
    have hget : (graph.ranks.map graph.reachableFrom)[a]? = none := by
      rw [List.getElem?_eq_none_iff, List.length_map, ranks, List.length_range]
      exact Nat.le_of_not_lt hlt
    rw [hget]
    exact iff_of_false (by simp) fun h => hlt (hwf.reaching_lt h)

theorem mem_cycleOf (hwf : graph.WellFormed) {node other : Nat} :
    other ∈ graph.cycleOf node ↔ graph.Reaches node other ∧ graph.Reaches other node := by
  rw [cycleOf_eq, List.mem_filter, Bool.and_eq_true, contains_reach hwf, contains_reach hwf, ranks,
    List.mem_range]
  exact ⟨fun h => h.2, fun h => ⟨hwf.reached_lt h.1, h⟩⟩

theorem cycleOf_congr (hwf : graph.WellFormed) {a b : Nat} (hab : graph.Reaches a b)
    (hba : graph.Reaches b a) : graph.cycleOf a = graph.cycleOf b := by
  rw [cycleOf_eq, cycleOf_eq]
  refine List.filter_congr fun other _ => ?_
  rw [Bool.eq_iff_iff, Bool.and_eq_true, Bool.and_eq_true, contains_reach hwf, contains_reach hwf,
    contains_reach hwf, contains_reach hwf]
  constructor
  · rintro ⟨hto, hfrom⟩
    exact ⟨hba.trans hto, hfrom.trans hab⟩
  · rintro ⟨hto, hfrom⟩
    exact ⟨hab.trans hto, hfrom.trans hba⟩

/-- **The cycles that are listed are those of the nodes that reach themselves.** -/
theorem mem_cycleRanks (hwf : graph.WellFormed) {cycle : List Nat} :
    cycle ∈ graph.cycleRanks ↔ ∃ node, graph.Reaches node node ∧ cycle = graph.cycleOf node := by
  have hlisted : cycle ∈ graph.cycleRanks ↔ ∃ node, node < graph.size ∧
      (graph.cycleOf node).head? = some node ∧ cycle = graph.cycleOf node := by
    have hplace : cycle ∈ graph.cycleRanks ↔ ∃ node ∈ graph.ranks,
        (if (graph.cycleOf node).head? = some node then some (graph.cycleOf node) else none) =
          some cycle :=
      List.mem_filterMap
    rw [hplace]
    refine exists_congr fun node => ?_
    rw [Option.ite_none_right_eq_some, Option.some.injEq, eq_comm (a := cycle), ranks,
      List.mem_range]
  rw [hlisted]
  constructor
  · rintro ⟨node, -, hhead, rfl⟩
    exact ⟨node, ((mem_cycleOf hwf).1 (List.mem_of_head? hhead)).1, rfl⟩
  · rintro ⟨node, hself, rfl⟩
    -- the cycle is listed at the place of its first member
    have hmem : node ∈ graph.cycleOf node := (mem_cycleOf hwf).2 ⟨hself, hself⟩
    obtain ⟨first, rest, hcycle⟩ := List.exists_cons_of_ne_nil (List.ne_nil_of_mem hmem)
    have hfirst : first ∈ graph.cycleOf node := hcycle ▸ List.mem_cons_self
    obtain ⟨hto, hfrom⟩ := (mem_cycleOf hwf).1 hfirst
    have hsame := cycleOf_congr hwf hto hfrom
    refine ⟨first, hwf.reached_lt hto, ?_, hsame⟩
    rw [← hsame, hcycle]
    rfl

/-- A node on a cycle finds its own one among those that are listed. -/
theorem find?_cycleRanks (hwf : graph.WellFormed) {node : Nat} (h : graph.Reaches node node) :
    graph.cycleRanks.find? (·.contains node) = some (graph.cycleOf node) := by
  have hmem : graph.cycleOf node ∈ graph.cycleRanks := (mem_cycleRanks hwf).2 ⟨node, h, rfl⟩
  have hself : (graph.cycleOf node).contains node = true :=
    List.contains_iff_mem.2 ((mem_cycleOf hwf).2 ⟨h, h⟩)
  obtain ⟨found, hfound⟩ := Option.isSome_iff_exists.1
    (List.find?_isSome.2 ⟨graph.cycleOf node, hmem, hself⟩)
  obtain ⟨other, -, rfl⟩ := (mem_cycleRanks hwf).1 (List.mem_of_find?_eq_some hfound)
  have hcontains := List.find?_some (p := fun cycle : List Nat => cycle.contains node) hfound
  obtain ⟨hto, hfrom⟩ := (mem_cycleOf hwf).1 (List.contains_iff_mem.1 hcontains)
  rw [hfound, cycleOf_congr hwf hto hfrom]

/-- A node that is on no cycle finds none. -/
theorem find?_cycleRanks_eq_none (hwf : graph.WellFormed) {node : Nat}
    (h : ¬ graph.Reaches node node) : graph.cycleRanks.find? (·.contains node) = none := by
  rw [List.find?_eq_none]
  intro cycle hcycle hcontains
  obtain ⟨other, -, rfl⟩ := (mem_cycleRanks hwf).1 hcycle
  obtain ⟨hto, hfrom⟩ := (mem_cycleOf hwf).1 (List.contains_iff_mem.1 hcontains)
  exact h (hfrom.trans hto)

end PeriodSheet.DependencyGraph
