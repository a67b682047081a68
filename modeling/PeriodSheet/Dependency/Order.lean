import PeriodSheet.Dependency.Graph

/-!
# The order of evaluation

Orders the nodes of a graph so that each comes after the nodes that it refers to, the lowest rank
first wherever there is a choice.  Every node counts the references that still wait for their
target; it is ready when none is left.  Nodes on a cycle, or behind one, never become ready.
-/

namespace PeriodSheet

/-- The fields of a graph that has cycles. -/
structure CycleError where
  /-- The fields that have an order, in that order. -/
  resolved : List FieldName
  /-- The other fields, by rank. -/
  remaining : List FieldName
deriving DecidableEq

def CycleError.message (error : CycleError) : String :=
  "circular references between calculated fields: " ++
    ", ".intercalate (error.remaining.map (·.spelling))

namespace DependencyGraph

/-- How far the ordering of a graph has come. -/
structure Progress where
  /-- For each node, how many of its references wait for their target to be ordered. -/
  waiting : List Int
  /-- The nodes that wait for nothing and are not ordered yet, ascending. -/
  ready : List Nat
  /-- The nodes ordered so far. -/
  ordered : List Nat
deriving DecidableEq

/-- Puts a rank at its place among ascending ones. -/
def insertRank (rank : Nat) : List Nat → List Nat
  | [] => [rank]
  | other :: rest =>
    if rank < other then rank :: other :: rest
    else if rank = other then other :: rest
    else other :: insertRank rank rest

namespace Progress

/-- The start: nothing is ordered, and the nodes without references are ready. -/
def start (graph : DependencyGraph) : Progress :=
  { waiting := graph.ranks.map fun rank => ((graph.targetsOf rank).length : Int)
    ready := graph.ranks.filter fun rank => (graph.targetsOf rank).isEmpty
    ordered := [] }

/-- A node waits for one target less, and is ready when it waits for none. -/
def release (progress : Progress) (rank : Nat) : Progress :=
  let left := progress.waiting[rank]?.getD 0 - 1
  { progress with
    waiting := progress.waiting.set rank left
    ready := if left = 0 then insertRank rank progress.ready else progress.ready }

/-- Orders the lowest node that is ready, if there is one. -/
def step? (graph : DependencyGraph) (progress : Progress) : Option Progress :=
  match progress.ready with
  | [] => none
  | rank :: rest =>
    some <| (graph.sourcesOf rank).foldl release
      { progress with ready := rest, ordered := progress.ordered ++ [rank] }

def run (graph : DependencyGraph) : Nat → Progress → Progress
  | 0, progress => progress
  | steps + 1, progress =>
    match progress.step? graph with
    | none => progress
    | some next => run graph steps next

end Progress

/-- The ranks that have an order, in that order; no graph takes more steps than it has nodes. -/
def order (graph : DependencyGraph) : List Nat :=
  (Progress.run graph graph.size (.start graph)).ordered

/-- The fields in the order of evaluation, or those that have one and those that have none. -/
def sort (graph : DependencyGraph) : Except CycleError (List FieldName) :=
  let order := graph.order
  if order.length = graph.size then .ok (graph.namesOf order)
  else
    .error
      { resolved := graph.namesOf order
        remaining := graph.namesOf (graph.ranks.filter fun rank => !order.contains rank) }

end DependencyGraph

end PeriodSheet
