import PeriodSheet.Formula.Expr

/-!
# Dependency graphs

Which calculated fields refer to which.  The nodes are ranked by their place in the list that the
graph is built from, and everything that lists nodes lists them by rank.  A name may occur more than
once; references and look-ups by name then mean its first node.
-/

namespace PeriodSheet

/-- A graph of references among fields. -/
structure DependencyGraph where
  nodes : List FieldName
  /-- For each node, the ranks of the nodes that it refers to, ascending. -/
  targets : List (List Nat)
deriving DecidableEq

namespace DependencyGraph

/-- The rank of the first node of a name. -/
def rankIn? (nodes : List FieldName) (name : FieldName) : Option Nat :=
  nodes.findIdx? (·.same name)

/-- The graph of fields, given by rank, each with the names that it refers to.  A name that is no
node makes no edge; a field that refers to itself does. -/
def ofReferences (fields : List (FieldName × List FieldName)) : DependencyGraph :=
  let nodes := fields.map (·.1)
  { nodes
    targets := fields.map fun (_, references) =>
      let ranks := references.filterMap (rankIn? nodes)
      -- through all ranks, to list each target once and ascending
      (List.range nodes.length).filter fun rank => ranks.contains rank }

def size (graph : DependencyGraph) : Nat :=
  graph.nodes.length

def ranks (graph : DependencyGraph) : List Nat :=
  List.range graph.size

def rank? (graph : DependencyGraph) (name : FieldName) : Option Nat :=
  rankIn? graph.nodes name

def contains (graph : DependencyGraph) (name : FieldName) : Bool :=
  graph.nodes.any (·.same name)

def targetsOf (graph : DependencyGraph) (rank : Nat) : List Nat :=
  (graph.targets[rank]?).getD []

def refersTo (graph : DependencyGraph) (rank target : Nat) : Bool :=
  (graph.targetsOf rank).contains target

/-- The ranks of the nodes that refer to a node. -/
def sourcesOf (graph : DependencyGraph) (rank : Nat) : List Nat :=
  graph.ranks.filter (graph.refersTo · rank)

def namesOf (graph : DependencyGraph) (ranks : List Nat) : List FieldName :=
  ranks.filterMap (graph.nodes[·]?)

def dependencies (graph : DependencyGraph) (name : FieldName) : List FieldName :=
  match graph.rank? name with
  | some rank => graph.namesOf (graph.targetsOf rank)
  | none => []

def dependents (graph : DependencyGraph) (name : FieldName) : List FieldName :=
  match graph.rank? name with
  | some rank => graph.namesOf (graph.sourcesOf rank)
  | none => []

end DependencyGraph

end PeriodSheet
