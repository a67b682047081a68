import PeriodSheet.Proofs.Dependency.Order

/-!
# The choices of the ordering

Wherever the ordering of a graph has a choice it takes the lowest rank (`greedy_order`).  Any other
legal order takes, where it departs from this one, a node that the ordering could have taken as
well, and so a higher one: of all legal orders of the same nodes this one is the least, rank by rank
(`Greedy.eq_or_lex`).

The counts of the references that wait stay at zero or above throughout, also while a step is under
way (`Passes.waiting_nonneg`).
-/

namespace PeriodSheet.DependencyGraph

variable {graph : DependencyGraph}

/-! ### Prefixes of legal orders -/

theorem Legal.of_append {ordered later : List Nat} (h : graph.Legal (ordered ++ later)) :
    graph.Legal ordered := by
  induction later using List.reverseRecOn with
  | nil => rwa [List.append_nil] at h
  | append_singleton later last ih =>
    rw [← List.append_assoc] at h
    generalize hall : ordered ++ later ++ [last] = all at h
    cases h with
    | nil => simp at hall
    | snoc hlegal _ _ => exact ih (List.append_inj_left' hall rfl ▸ hlegal)

/-- Whether a node may follow the nodes that are ordered so far. -/
def MayFollow (graph : DependencyGraph) (ordered : List Nat) (node : Nat) : Prop :=
  node < graph.size ∧ node ∉ ordered ∧ ∀ target, graph.Refers node target → target ∈ ordered

/-- Each node of a legal order may follow those before it. -/
theorem Legal.mayFollow {before later : List Nat} {node : Nat}
    (h : graph.Legal (before ++ node :: later)) (hlt : node < graph.size) :
    graph.MayFollow before node := by
  have hfirst : graph.Legal (before ++ [node]) := by
    rw [List.append_cons] at h
    exact h.of_append
  generalize hall : before ++ [node] = all at hfirst
  cases hfirst with
  | nil => simp at hall
  | @snoc ordered last _ hnew htargets =>
    obtain ⟨rfl, hlast⟩ := List.append_inj' hall rfl
    obtain rfl := List.singleton_inj.1 hlast
    exact ⟨hlt, hnew, htargets⟩

/-- A list where each node stands once, and after its targets, is a legal order. -/
theorem Legal.of_split {ordered : List Nat} (hnodup : ordered.Nodup)
    (hafter : ∀ before node later, ordered = before ++ node :: later →
      ∀ target, graph.Refers node target → target ∈ before) : graph.Legal ordered := by
  induction ordered using List.reverseRecOn with
  | nil => exact .nil
  | append_singleton ordered last ih =>
    have hinit : graph.Legal ordered := by
      refine ih (List.nodup_append.1 hnodup).1 fun before node later hsplit => ?_
      refine hafter before node (later ++ [last]) ?_
      rw [hsplit, List.append_assoc, List.cons_append]
    have hnew : last ∉ ordered := fun hmem =>
      (List.nodup_append.1 hnodup).2.2 last hmem last (List.mem_singleton_self last) rfl
    exact hinit.snoc hnew (hafter ordered last [] rfl)

/-! ### Greedy orders -/

/-- An order is greedy where no node that may follow at some place is lower than the one there. -/
def Greedy (graph : DependencyGraph) (ordered : List Nat) : Prop :=
  ∀ before node later, ordered = before ++ node :: later →
    ∀ other, graph.MayFollow before other → node ≤ other

theorem Greedy.snoc {ordered : List Nat} (h : graph.Greedy ordered) {node : Nat}
    (hnode : ∀ other, graph.MayFollow ordered other → node ≤ other) :
    graph.Greedy (ordered ++ [node]) := by
  intro before first later hsplit
  cases later using List.reverseRecOn with
  | nil =>
    obtain ⟨rfl, hlast⟩ := List.append_inj' hsplit rfl
    obtain rfl := List.singleton_inj.1 hlast
    exact hnode
  | append_singleton later last =>
    rw [← List.cons_append, ← List.append_assoc] at hsplit
    exact h before first later (List.append_inj_left' hsplit rfl)

/-- **No legal order of as many nodes is lower than a greedy one**, by induction on what follows the
nodes that both begin with. -/
theorem Greedy.eq_or_lex {before order other : List Nat} (hgreedy : graph.Greedy (before ++ order))
    (hlegal : graph.Legal (before ++ other)) (hlt : ∀ node ∈ other, node < graph.size)
    (hlength : order.length = other.length) : order = other ∨ List.Lex (· < ·) order other := by
  induction order generalizing before other with
  | nil => exact .inl (List.eq_nil_of_length_eq_zero hlength.symm).symm
  | cons node rest ih =>
    cases other with
    | nil => simp at hlength
    | cons taken others =>
      have hle : node ≤ taken :=
        hgreedy before node rest rfl taken (hlegal.mayFollow (hlt taken List.mem_cons_self))
      by_cases heq : node = taken
      · -- both go on from the same nodes
        subst heq
        rw [List.append_cons] at hgreedy hlegal
        have hrest := ih hgreedy hlegal (fun n hmem => hlt n (List.mem_cons_of_mem _ hmem))
          (by simpa using hlength)
        exact hrest.imp (congrArg (node :: ·)) .cons
      · exact .inr (.rel (by omega))

/-! ### The order that comes out -/

namespace Progress

theorem step?_eq_some {progress next : Progress} (h : progress.step? graph = some next) :
    ∃ rank rest, progress.ready = rank :: rest ∧
      next = (graph.sourcesOf rank).foldl release
        { progress with ready := rest, ordered := progress.ordered ++ [rank] } := by
  unfold step? at h
  split at h
  · cases h
  · exact ⟨_, _, ‹_›, (Option.some.inj h).symm⟩

/-- A step takes the lowest node that may follow. -/
theorem Invariant.greedy_step {progress next : Progress} (h : Invariant graph progress)
    (hgreedy : graph.Greedy progress.ordered) (hstep : progress.step? graph = some next) :
    graph.Greedy next.ordered := by
  obtain ⟨rank, rest, hready, rfl⟩ := step?_eq_some hstep
  have hascending := h.ascending
  rw [hready] at hascending
  have hnodup : (graph.sourcesOf rank).Nodup := List.nodup_range.filter _
  rw [(foldl_release hnodup _).1]
  refine hgreedy.snoc fun other hother => ?_
  have hmem : other ∈ rank :: rest := hready ▸ (h.ready other).2 hother
  rcases List.mem_cons.1 hmem with rfl | hmem
  · exact Nat.le_refl other
  · exact Nat.le_of_lt ((List.pairwise_cons.1 hascending).1 other hmem)

/-- All steps do. -/
theorem Invariant.greedy_run (hwf : graph.WellFormed) {progress : Progress}
    (h : Invariant graph progress) (hgreedy : graph.Greedy progress.ordered) (steps : Nat) :
    graph.Greedy (Progress.run graph steps progress).ordered := by
  induction steps generalizing progress with
  | zero => exact hgreedy
  | succ steps ih =>
    unfold Progress.run
    cases hstep : progress.step? graph with
    | none => exact hgreedy
    | some next => exact ih (h.step hwf hstep).1 (h.greedy_step hgreedy hstep)

end Progress

theorem greedy_order (hwf : graph.WellFormed) : graph.Greedy graph.order := by
  have hstart : graph.Greedy (Progress.start graph).ordered := by
    intro before node later hnil
    simp [Progress.start] at hnil
  exact (Progress.invariant_start graph).greedy_run hwf hstart graph.size

/-! ### Counts -/

namespace Progress

/-- The states that the ordering of a graph passes through: those between its steps, and within a
step those in which a node was taken and the first few of the nodes that refer to it were
released. -/
inductive Passes (graph : DependencyGraph) : Progress → Prop where
  | between (steps : Nat) : Passes graph (run graph steps (.start graph))
  | within {steps rank : Nat} {rest released later : List Nat} :
      (run graph steps (.start graph)).ready = rank :: rest →
      graph.sourcesOf rank = released ++ later →
      Passes graph (released.foldl release
        { run graph steps (.start graph) with
          ready := rest
          ordered := (run graph steps (.start graph)).ordered ++ [rank] })

theorem length_waiting_foldl (sources : List Nat) (progress : Progress) :
    (sources.foldl release progress).waiting.length = progress.waiting.length := by
  refine List.foldlRecOn
    (motive := fun after : Progress => after.waiting.length = progress.waiting.length)
    sources release rfl ?_
  intro after h source _
  rw [← h]
  exact List.length_set

/-- Each node keeps its count. -/
theorem length_waiting_run (steps : Nat) (progress : Progress) :
    (run graph steps progress).waiting.length = progress.waiting.length := by
  induction steps generalizing progress with
  | zero => rfl
  | succ steps ih =>
    unfold run
    cases hstep : progress.step? graph with
    | none => rfl
    | some next =>
      obtain ⟨rank, rest, -, rfl⟩ := step?_eq_some hstep
      dsimp only
      rw [ih, length_waiting_foldl]

/-- Between two steps each count is a number of targets. -/
theorem Invariant.waiting_nonneg {progress : Progress} (h : Invariant graph progress)
    (hlength : progress.waiting.length = graph.size) : ∀ count ∈ progress.waiting, 0 ≤ count := by
  intro count hcount
  obtain ⟨node, hnode⟩ := List.getElem?_of_mem hcount
  have hlt : node < graph.size := hlength ▸ (List.getElem?_eq_some_iff.1 hnode).1
  rw [h.waiting node hlt] at hnode
  have := Option.some.inj hnode
  omega

/-- Within a step, a node that is released was waiting for the one that was taken. -/
theorem Invariant.released_nonneg (hwf : graph.WellFormed) {progress : Progress}
    (h : Invariant graph progress) (hlength : progress.waiting.length = graph.size) {rank : Nat}
    {rest released later : List Nat} (hready : progress.ready = rank :: rest)
    (hsources : graph.sourcesOf rank = released ++ later) :
    ∀ count ∈ (released.foldl release
      { progress with ready := rest, ordered := progress.ordered ++ [rank] }).waiting,
        0 ≤ count := by
  intro count hcount
  obtain ⟨node, hnode⟩ := List.getElem?_of_mem hcount
  have hlt : node < graph.size := by
    have hlt := (List.getElem?_eq_some_iff.1 hnode).1
    rw [length_waiting_foldl] at hlt
    exact hlt.trans_eq hlength
  have hnodup : (released ++ later).Nodup := hsources ▸ List.nodup_range.filter _
  have hwaiting := (foldl_release (List.nodup_append.1 hnodup).1
    { progress with ready := rest, ordered := progress.ordered ++ [rank] }).2.1 node
  dsimp only at hwaiting
  rw [hwaiting, h.waiting node hlt] at hnode
  split at hnode
  · rename_i hmem
    have href : graph.Refers node rank :=
      (mem_sourcesOf hwf).1 (hsources ▸ List.mem_append_left later hmem)
    have hnew : rank ∉ progress.ordered := ((h.ready rank).1 (hready ▸ List.mem_cons_self)).2.1
    have hsnoc := waitingFor_snoc hwf hnew node
    rw [if_pos href] at hsnoc
    rw [Option.map_some] at hnode
    have := Option.some.inj hnode
    omega
  · have := Option.some.inj hnode
    omega

/-- **No count goes below zero.** -/
theorem Passes.waiting_nonneg (hwf : graph.WellFormed) {progress : Progress}
    (h : Passes graph progress) : ∀ count ∈ progress.waiting, 0 ≤ count := by
  have hinv (steps : Nat) := ((invariant_start graph).run hwf steps).1
  have hlength (steps : Nat) : (run graph steps (.start graph)).waiting.length = graph.size := by
    rw [length_waiting_run]
    simp [start, ranks]
  cases h with
  | between steps => exact (hinv steps).waiting_nonneg (hlength steps)
  | within hready hsources => exact (hinv _).released_nonneg hwf (hlength _) hready hsources

end Progress

end PeriodSheet.DependencyGraph
