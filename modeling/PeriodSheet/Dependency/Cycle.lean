import PeriodSheet.Dependency.Graph

/-!
# Cycles of references

The groups of fields that refer to one another in a circle.  Two fields share a cycle where each
reaches the other through references; a field that refers to itself is a cycle of its own.
-/

namespace PeriodSheet.DependencyGraph

/-- Adds what the frontier refers to, round after round, until a round brings nothing new. -/
def spread (graph : DependencyGraph) : (rounds : Nat) → (frontier seen : List Nat) → List Nat
  | 0, _, seen => seen
  | rounds + 1, frontier, seen =>
    let next := ((frontier.flatMap graph.targetsOf).eraseDups).filter (!seen.contains ·)
    if next.isEmpty then seen else graph.spread rounds next (seen ++ next)

/-- The nodes that a node reaches by one reference or more; every round but the last brings a new
node, so there are no more rounds than nodes. -/
def reachableFrom (graph : DependencyGraph) (rank : Nat) : List Nat :=
  graph.spread graph.size [rank] []

/-- The ranks that share a cycle with a rank, ascending, given what each rank reaches. -/
def cycleIn (reach : List (List Nat)) (rank : Nat) : List Nat :=
  let reaches (a b : Nat) : Bool := ((reach[a]?).getD []).contains b
  (List.range reach.length).filter fun other => reaches rank other && reaches other rank

/-- The ranks of each cycle, ascending; a cycle stands at the place of its lowest rank. -/
def cycleRanks (graph : DependencyGraph) : List (List Nat) :=
  let reach := graph.ranks.map graph.reachableFrom
  graph.ranks.filterMap fun rank =>
    let cycle := cycleIn reach rank
    -- every member finds the same cycle; only its lowest one lists it
    if cycle.head? = some rank then some cycle else none

/-- The fields of each cycle, by rank. -/
def cycles (graph : DependencyGraph) : List (List FieldName) :=
  graph.cycleRanks.map graph.namesOf

end PeriodSheet.DependencyGraph
