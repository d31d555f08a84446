import ScriptGraph.Graph.Node

/-!
# Graphs

A graph is a list of nodes and a list of edges. Neither list is restricted: ids may
repeat, and edges may name ids that no node has. The first node with an id is the one
that the id stands for.
-/
namespace ScriptGraph

/-- An edge from a handle of one node to a handle of another. -/
structure Edge where
  source : NodeId
  sourceHandle : Handle
  target : NodeId
  targetHandle : Handle
deriving DecidableEq

structure Graph where
  nodes : List Node := []
  edges : List Edge := []
deriving DecidableEq

namespace Graph

def empty : Graph := ⟨[], []⟩

instance : Inhabited Graph := ⟨empty⟩

/-- The first node with an id. -/
def node? (g : Graph) (id : NodeId) : Option Node := g.nodes.find? (·.id == id)

def contains (g : Graph) (id : NodeId) : Bool := g.nodes.any (·.id == id)

/-- The edges that leave a handle of an id, in order. -/
def outgoing (g : Graph) (id : NodeId) (h : Handle) : List Edge :=
  g.edges.filter fun e => e.source == id && e.sourceHandle == h

/-- The edges that enter an id, in order. -/
def incoming (g : Graph) (id : NodeId) : List Edge :=
  g.edges.filter (·.target == id)

/-- The trigger nodes with their calls, in order. -/
def timings (g : Graph) : List (NodeId × Call) :=
  g.nodes.filterMap fun n => match n.body with
    | .timing call => some (n.id, call)
    | _ => none

end Graph

end ScriptGraph
