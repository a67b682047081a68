import Mathlib.Data.Fintype.EquivFin
import Mathlib.Data.List.Perm.Subperm
import PeriodSheet.Dependency.Order
import PeriodSheet.Proofs.Dependency.Reach

/-!
# The order of evaluation

What the ordering of a graph comes to.  While it is under way, each node's count says how many of
its targets are not ordered yet, and the ready nodes are those that wait for none
(`Progress.Invariant`).  When no node is ready any more, exactly the nodes that are not blocked have
been ordered (`mem_order`), each after the nodes that it refers to (`legal_order`).
-/

namespace PeriodSheet.DependencyGraph

variable {graph : DependencyGraph}

/-! ### Legal orders -/

/-- A list of nodes is a legal order where each node stands there once and after its targets. -/
inductive Legal (graph : DependencyGraph) : List Nat → Prop where
  | nil : Legal graph []
  | snoc {ordered : List Nat} {node : Nat} : Legal graph ordered → node ∉ ordered →
      (∀ target, graph.Refers node target → target ∈ ordered) → Legal graph (ordered ++ [node])

theorem Legal.nodup {ordered : List Nat} (h : graph.Legal ordered) : ordered.Nodup := by
  induction h with
  | nil => exact List.nodup_nil
  | @snoc ordered node _ hnew _ ih =>
    rw [List.nodup_append]
    refine ⟨ih, List.nodup_singleton node, fun a ha b hb => ?_⟩
    rintro rfl
    exact hnew (List.mem_singleton.1 hb ▸ ha)

theorem Legal.mem_of_refers {ordered : List Nat} (h : graph.Legal ordered) {node target : Nat}
    (hmem : node ∈ ordered) (href : graph.Refers node target) : target ∈ ordered := by
  induction h with
  | nil => cases hmem
  | @snoc ordered last _ _ htargets ih =>
    rcases List.mem_append.1 hmem with hmem | hmem
    · exact List.mem_append_left [last] (ih hmem)
    · obtain rfl := List.mem_singleton.1 hmem
      exact List.mem_append_left [node] (htargets target href)

theorem Legal.not_blocked {ordered : List Nat} (h : graph.Legal ordered) {node : Nat}
    (hmem : node ∈ ordered) : ¬ graph.Blocked node := by
  induction h generalizing node with
  | nil => cases hmem
  | snoc _ _ htargets ih =>
    rcases List.mem_append.1 hmem with hmem | hmem
    · exact ih hmem
    · obtain rfl := List.mem_singleton.1 hmem
      intro hblocked
      obtain ⟨target, href, hblocked⟩ := blocked_iff_exists_target.1 hblocked
      exact ih (htargets target href) hblocked

/-! ### Waiting -/

/-- How many targets of a node are not ordered. -/
def waitingFor (graph : DependencyGraph) (ordered : List Nat) (node : Nat) : Nat :=
  (graph.targetsOf node).countP (!ordered.contains ·)

theorem waitingFor_eq_zero {ordered : List Nat} {node : Nat} :
    graph.waitingFor ordered node = 0 ↔ ∀ target, graph.Refers node target → target ∈ ordered := by
  simp [waitingFor, List.countP_eq_zero, Refers]

/-- Leaving out one element that is counted lowers the count by one. -/
theorem countP_eq_countP_ne_add {p : Nat → Bool} {x : Nat} (hx : p x = true) {l : List Nat}
    (hnodup : l.Nodup) :
    l.countP p = l.countP (fun y => p y && y != x) + if x ∈ l then 1 else 0 := by
  induction l with
  | nil => rfl
  | cons y rest ih =>
    obtain ⟨hy, hrest⟩ := List.nodup_cons.1 hnodup
    have ih := ih hrest
    by_cases heq : y = x
    · subst heq
      rw [if_neg hy] at ih
      simp [hx, ih]
    · have hmem : x ∈ y :: rest ↔ x ∈ rest := by simp [Ne.symm heq]
      simp only [List.countP_cons, ih, hmem, bne_iff_ne, ne_eq, heq, not_false_eq_true,
        Bool.and_eq_true, and_true]
      omega

/-- With one more node ordered, a node that refers to it waits for one target less. -/
theorem waitingFor_snoc (hwf : graph.WellFormed) {ordered : List Nat} {last : Nat}
    (hnew : last ∉ ordered) (node : Nat) :
    graph.waitingFor ordered node =
      graph.waitingFor (ordered ++ [last]) node + if graph.Refers node last then 1 else 0 := by
  have hnodup : (graph.targetsOf node).Nodup := (hwf.ascending node).imp Nat.ne_of_lt
  have hlast : (!ordered.contains last) = true := by simpa using hnew
  -- the new node is the one more that is ordered
  have hpred : (fun target => !(ordered ++ [last]).contains target) =
      fun target => !ordered.contains target && target != last := by
    funext target
    rw [Bool.eq_iff_iff]
    simp
  rw [waitingFor, waitingFor, hpred, countP_eq_countP_ne_add hlast hnodup]
  rfl

theorem mem_sourcesOf (hwf : graph.WellFormed) {node target : Nat} :
    node ∈ graph.sourcesOf target ↔ graph.Refers node target := by
  simp only [sourcesOf, ranks, List.mem_filter, List.mem_range, refersTo, List.contains_iff_mem]
  exact ⟨fun h => h.2, fun href => ⟨hwf.source_lt href, href⟩⟩

/-! ### Progress -/

theorem mem_insertRank {rank node : Nat} {ranks : List Nat} :
    node ∈ insertRank rank ranks ↔ node = rank ∨ node ∈ ranks := by
  fun_induction insertRank rank ranks with
  | case1 => simp
  | case2 => simp
  | case3 => simp
  | case4 other rest _ _ ih =>
    rw [List.mem_cons, ih, List.mem_cons]
    exact or_left_comm

theorem ascending_insertRank {rank : Nat} {ranks : List Nat} (h : ranks.Pairwise (· < ·)) :
    (insertRank rank ranks).Pairwise (· < ·) := by
  fun_induction insertRank rank ranks with
  | case1 => exact List.pairwise_singleton _ _
  | case2 other rest hlt =>
    refine List.pairwise_cons.2 ⟨fun node hmem => ?_, h⟩
    rcases List.mem_cons.1 hmem with rfl | hmem
    · exact hlt
    · exact Nat.lt_trans hlt ((List.pairwise_cons.1 h).1 node hmem)
  | case3 => exact h
  | case4 other rest hle hne ih =>
    obtain ⟨hother, hrest⟩ := List.pairwise_cons.1 h
    refine List.pairwise_cons.2 ⟨fun node hmem => ?_, ih hrest⟩
    rcases mem_insertRank.1 hmem with rfl | hmem
    · omega
    · exact hother node hmem

namespace Progress

/-- What holds while a graph is being ordered. -/
structure Invariant (graph : DependencyGraph) (progress : Progress) : Prop where
  legal : graph.Legal progress.ordered
  ordered_lt : ∀ node ∈ progress.ordered, node < graph.size
  /-- Each count is that of the targets that are not ordered. -/
  waiting : ∀ node, node < graph.size →
    progress.waiting[node]? = some (graph.waitingFor progress.ordered node : Int)
  /-- The ready nodes are those that could be ordered next. -/
  ready : ∀ node, node ∈ progress.ready ↔ node < graph.size ∧ node ∉ progress.ordered ∧
    ∀ target, graph.Refers node target → target ∈ progress.ordered
  ascending : progress.ready.Pairwise (· < ·)

theorem invariant_start (graph : DependencyGraph) : Invariant graph (start graph) where
  legal := .nil
  ordered_lt _ h := by cases h
  waiting node hlt := by
    have hwaiting : (start graph).waiting =
        graph.ranks.map fun rank => ((graph.targetsOf rank).length : Int) := rfl
    have hordered : (start graph).ordered = [] := rfl
    rw [hwaiting, hordered, List.getElem?_map, ranks, List.getElem?_range hlt, waitingFor]
    simp
  ready node := by
    have hready : (start graph).ready =
        graph.ranks.filter fun rank => (graph.targetsOf rank).isEmpty := rfl
    have hordered : (start graph).ordered = [] := rfl
    rw [hready, hordered, List.mem_filter, ranks, List.mem_range, List.isEmpty_iff,
      List.eq_nil_iff_forall_not_mem]
    simp [Refers]
  ascending := List.pairwise_lt_range.filter _

/-- Releasing some nodes: each waits for one target less and is ready where it waited for one. -/
theorem foldl_release {sources : List Nat} (hnodup : sources.Nodup) (progress : Progress) :
    let after := sources.foldl release progress
    after.ordered = progress.ordered ∧
      (∀ node, after.waiting[node]? =
        if node ∈ sources then progress.waiting[node]?.map (· - 1) else progress.waiting[node]?) ∧
      (∀ node, node ∈ after.ready ↔
        node ∈ progress.ready ∨ node ∈ sources ∧ progress.waiting[node]?.getD 0 = 1) ∧
      (progress.ready.Pairwise (· < ·) → after.ready.Pairwise (· < ·)) := by
  induction sources generalizing progress with
  | nil => exact ⟨rfl, fun _ => rfl, fun node => by simp, id⟩
  | cons source rest ih =>
    obtain ⟨hsource, hrest⟩ := List.nodup_cons.1 hnodup
    obtain ⟨hordered, hwaiting, hready, hascending⟩ := ih hrest (progress.release source)
    have hother : ∀ node, node ≠ source →
        (progress.release source).waiting[node]? = progress.waiting[node]? := by
      intro node hne
      rw [release, List.getElem?_set_ne (Ne.symm hne)]
    have hself : (progress.release source).waiting[source]? =
        progress.waiting[source]?.map (· - 1) := by
      rw [release, List.getElem?_set_self']
      cases progress.waiting[source]? <;> rfl
    -- the released node is ready where the count comes to zero
    have hreleased : ∀ node, node ∈ (progress.release source).ready ↔
        node ∈ progress.ready ∨ node = source ∧ progress.waiting[source]?.getD 0 = 1 := by
      intro node
      unfold release
      dsimp only
      split
      · rename_i hzero
        have hone : progress.waiting[source]?.getD 0 = 1 := by omega
        rw [mem_insertRank, hone]
        simp [or_comm]
      · rename_i hzero
        have hone : progress.waiting[source]?.getD 0 ≠ 1 := by omega
        simp [hone]
    -- the node that is released first is not released again
    simp only [List.foldl_cons]
    refine ⟨hordered, fun node => ?_, fun node => ?_, fun h => hascending ?_⟩
    · rw [hwaiting]
      by_cases heq : node = source
      · subst heq
        rw [if_neg hsource, hself, if_pos List.mem_cons_self]
      · rw [hother node heq]
        simp [heq]
    · rw [hready, hreleased]
      by_cases heq : node = source
      · subst heq
        simp [hsource]
      · rw [hother node heq]
        simp [heq]
    · unfold release
      dsimp only
      split
      · exact ascending_insertRank h
      · exact h

/-- A step keeps the invariant. -/
theorem Invariant.step (hwf : graph.WellFormed) {progress next : Progress}
    (h : Invariant graph progress) (hstep : progress.step? graph = some next) :
    Invariant graph next ∧ next.ordered.length = progress.ordered.length + 1 := by
  cases hready : progress.ready with
  | nil =>
    rw [step?, hready] at hstep
    cases hstep
  | cons rank rest =>
    rw [step?, hready] at hstep
    obtain rfl := Option.some.inj hstep
    obtain ⟨hlt, hnew, htargets⟩ := (h.ready rank).1 (hready ▸ List.mem_cons_self)
    have hascending := h.ascending
    rw [hready] at hascending
    obtain ⟨hfirst, hrest⟩ := List.pairwise_cons.1 hascending
    have hnodup : (graph.sourcesOf rank).Nodup := List.nodup_range.filter _
    obtain ⟨hordered, hwaiting, hreleased, hkept⟩ := foldl_release hnodup
      { progress with ready := rest, ordered := progress.ordered ++ [rank] }
    dsimp only at hordered hwaiting hreleased hkept
    have hlegal : graph.Legal (progress.ordered ++ [rank]) := .snoc h.legal hnew htargets
    -- a node that refers to the new one was waiting for it
    have hcount : ∀ node, graph.Refers node rank →
        (progress.waiting[node]?.getD 0 = 1 ↔
          graph.waitingFor (progress.ordered ++ [rank]) node = 0) := by
      intro node href
      have hsnoc := waitingFor_snoc hwf hnew node
      rw [if_pos href] at hsnoc
      rw [h.waiting node (hwf.source_lt href), Option.getD_some]
      omega
    refine ⟨⟨?_, fun node hmem => ?_, fun node hnode => ?_, fun node => ?_, hkept hrest⟩, ?_⟩
    · rw [hordered]
      exact hlegal
    · rw [hordered] at hmem
      rcases List.mem_append.1 hmem with hmem | hmem
      · exact h.ordered_lt node hmem
      · exact List.mem_singleton.1 hmem ▸ hlt
    · -- the counts
      have hsnoc := waitingFor_snoc hwf hnew node
      rw [hwaiting, hordered, h.waiting node hnode]
      by_cases href : graph.Refers node rank
      · rw [if_pos href] at hsnoc
        rw [if_pos ((mem_sourcesOf hwf).2 href), Option.map_some, Option.some.injEq]
        omega
      · rw [if_neg href] at hsnoc
        rw [if_neg fun hmem => href ((mem_sourcesOf hwf).1 hmem), hsnoc, Nat.add_zero]
    · rw [hreleased, hordered, mem_sourcesOf hwf]
      -- the ready nodes
      constructor
      · rintro (hmem | ⟨href, hone⟩)
        · have hold := (h.ready node).1 (hready ▸ List.mem_cons_of_mem rank hmem)
          refine ⟨hold.1, fun hmem' => ?_, fun target href =>
            List.mem_append_left [rank] (hold.2.2 target href)⟩
          rcases List.mem_append.1 hmem' with hmem' | hmem'
          · exact hold.2.1 hmem'
          · have := hfirst node hmem
            have := List.mem_singleton.1 hmem'
            omega
        · refine ⟨hwf.source_lt href, fun hmem => hnew ?_,
            waitingFor_eq_zero.1 ((hcount node href).1 hone)⟩
          -- an ordered node has its targets before it, and the new one was not there
          rcases List.mem_append.1 hmem with hmem | hmem
          · exact h.legal.mem_of_refers hmem href
          · obtain rfl := List.mem_singleton.1 hmem
            exact htargets node href
      · rintro ⟨hnode, hmem, hall⟩
        have hold : node ∉ progress.ordered := fun h => hmem (List.mem_append_left [rank] h)
        by_cases href : graph.Refers node rank
        · exact .inr ⟨href, (hcount node href).2 (waitingFor_eq_zero.2 hall)⟩
        · -- a node that does not refer to the new one waited for nothing before
          have hwas : node ∈ progress.ready := by
            refine (h.ready node).2 ⟨hnode, hold, fun target htarget => ?_⟩
            refine (List.mem_append.1 (hall target htarget)).resolve_right fun hlast => href ?_
            exact List.mem_singleton.1 hlast ▸ htarget
          rw [hready] at hwas
          refine .inl ((List.mem_cons.1 hwas).resolve_left ?_)
          rintro rfl
          exact hmem (List.mem_append_right _ (List.mem_singleton_self node))
    · rw [hordered, List.length_append, List.length_singleton]

/-- A run keeps the invariant, and ends early only where no node is ready. -/
theorem Invariant.run (hwf : graph.WellFormed) {progress : Progress} (h : Invariant graph progress)
    (steps : Nat) :
    Invariant graph (run graph steps progress) ∧
      ((Progress.run graph steps progress).ready = [] ∨
        (Progress.run graph steps progress).ordered.length = progress.ordered.length + steps) := by
  induction steps generalizing progress with
  | zero => exact ⟨h, .inr rfl⟩
  | succ steps ih =>
    unfold Progress.run
    cases hstep : progress.step? graph with
    | none =>
      refine ⟨h, .inl ?_⟩
      unfold step? at hstep
      split at hstep
      · assumption
      · cases hstep
    | some next =>
      obtain ⟨hnext, hlength⟩ := h.step hwf hstep
      obtain ⟨hrun, hend⟩ := ih hnext
      exact ⟨hrun, hend.imp_right fun h => by rw [h, hlength]; omega⟩

theorem Invariant.mem_of_length {progress : Progress} (h : Invariant graph progress)
    (hlength : progress.ordered.length = graph.size) {node : Nat} (hlt : node < graph.size) :
    node ∈ progress.ordered := by
  -- distinct nodes, as many as there are, are all of them
  have hsub : progress.ordered ⊆ List.range graph.size :=
    fun node hmem => List.mem_range.2 (h.ordered_lt node hmem)
  have hperm := (List.subperm_of_subset h.legal.nodup hsub).perm_of_length_le
    (by rw [List.length_range, hlength])
  exact hperm.mem_iff.2 (List.mem_range.2 hlt)

end Progress

/-! ### The outcome -/

/-- The ordering ends with no node ready. -/
theorem order_invariant (hwf : graph.WellFormed) :
    (Progress.run graph graph.size (.start graph)).Invariant graph ∧
      (Progress.run graph graph.size (.start graph)).ready = [] := by
  obtain ⟨hinv, hend⟩ := (Progress.invariant_start graph).run hwf graph.size
  refine ⟨hinv, hend.elim id fun hlength => ?_⟩
  -- with all nodes ordered, a ready one would be new
  rw [List.eq_nil_iff_forall_not_mem]
  intro node hmem
  obtain ⟨hlt, hnew, -⟩ := (hinv.ready node).1 hmem
  exact hnew (hinv.mem_of_length (hlength.trans (Nat.zero_add _)) hlt)

/-- The order that comes out is a legal one. -/
theorem legal_order (hwf : graph.WellFormed) : graph.Legal graph.order :=
  (order_invariant hwf).1.legal

/-- **Exactly the nodes that are not blocked have an order.** -/
theorem mem_order (hwf : graph.WellFormed) {node : Nat} :
    node ∈ graph.order ↔ node < graph.size ∧ ¬ graph.Blocked node := by
  obtain ⟨hinv, hready⟩ := order_invariant hwf
  refine ⟨fun hmem => ⟨hinv.ordered_lt node hmem, (legal_order hwf).not_blocked hmem⟩, ?_⟩
  rintro ⟨hlt, hfree⟩
  -- among finitely many nodes that are not blocked, reaching is well founded
  let Free := { rank : Fin graph.size // ¬ graph.Blocked rank }
  have hfounded : WellFounded fun a b : Free => graph.Reaches b.1 a.1 := by
    have : Finite Free := Finite.of_injective Subtype.val Subtype.val_injective
    have : IsTrans Free fun a b => graph.Reaches b.1 a.1 := ⟨fun _ _ _ hab hbc => hbc.trans hab⟩
    have : Std.Irrefl fun a b : Free => graph.Reaches b.1 a.1 :=
      ⟨fun a h => a.2 (.of_reaches_self h)⟩
    exact Finite.wellFounded_of_trans_of_irrefl _
  have key : ∀ rank : Free, rank.1.1 ∈ graph.order := by
    intro rank
    induction rank using hfounded.induction with
    | _ rank ih =>
      obtain ⟨⟨rank, hlt⟩, hfree⟩ := rank
      by_contra hnot
      -- its targets are ordered, by induction, so that the node would be ready
      have hmem : rank ∈ (Progress.run graph graph.size (.start graph)).ready := by
        refine (hinv.ready rank).2 ⟨hlt, hnot, fun target href => ?_⟩
        have hfree' : ¬ graph.Blocked target :=
          fun hblocked => hfree (blocked_iff_exists_target.2 ⟨target, href, hblocked⟩)
        exact ih ⟨⟨target, hwf.target_lt href⟩, hfree'⟩ (.single href)
      rw [hready] at hmem
      cases hmem
  exact key ⟨⟨node, hlt⟩, hfree⟩

/-- The nodes without an order are the blocked ones. -/
theorem mem_missing_order (hwf : graph.WellFormed) {node : Nat} :
    node ∈ graph.missing graph.order ↔ node < graph.size ∧ graph.Blocked node := by
  rw [mem_missing, mem_order hwf]
  exact and_congr_right fun hlt => by simp [hlt]

theorem missing_order_eq_nil (hwf : graph.WellFormed) (h : graph.order.length = graph.size) :
    graph.missing graph.order = [] := by
  rw [List.eq_nil_iff_forall_not_mem]
  intro node hmem
  obtain ⟨hlt, hnot⟩ := mem_missing.1 hmem
  exact hnot ((order_invariant hwf).1.mem_of_length h hlt)

end PeriodSheet.DependencyGraph
