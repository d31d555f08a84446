import ScriptGraph.Graph.Basic

/-!
# Sweeps

A sweep is one breadth-first search along output edges. What it meets, and in which
order, depends on the graph alone, so it is found before any statement is made.
-/
namespace ScriptGraph

/-- What a sweep meets: an id that no node has, with the id that led to it, or a node. -/
inductive Step
  | absent (id : NodeId) (referencedBy : NodeId)
  | present (node : Node)
deriving DecidableEq

namespace Step

/-- The id of the node that is visited, if there is one. -/
def visitedId? : Step → Option NodeId
  | absent .. => none
  | present n => some n.id

end Step

namespace Graph

/-- Where a sweep goes on from a node: the targets of its output edges, each with the id
of the node. A trigger is not passed through. -/
def followers (g : Graph) (n : Node) : List (NodeId × NodeId) :=
  if n.variant = .timing then []
  else (g.outgoing n.id .output).map fun e => (e.target, n.id)

/-- The number of nodes whose ids a sweep has not met yet. -/
def unmet (g : Graph) (met : List NodeId) : Nat :=
  (g.nodes.filter fun n => n.id ∉ met).length

theorem unmet_cons_le (g : Graph) (met : List NodeId) (id : NodeId) :
    g.unmet (id :: met) ≤ g.unmet met := by
  unfold unmet
  have : (g.nodes.filter fun n => n.id ∉ id :: met)
      = (g.nodes.filter fun n => n.id ∉ met).filter fun n => n.id ≠ id := by
    rw [List.filter_filter]
    congr 1
    funext n
    simp
  rw [this]
  exact List.length_filter_le _ _

theorem unmet_cons_lt {g : Graph} {met : List NodeId} {id : NodeId} {n : Node}
    (hn : g.node? id = some n) (hid : id ∉ met) :
    g.unmet (id :: met) < g.unmet met := by
  unfold unmet
  have : (g.nodes.filter fun n => n.id ∉ id :: met)
      = (g.nodes.filter fun n => n.id ∉ met).filter fun n => n.id ≠ id := by
    rw [List.filter_filter]
    congr 1
    funext n
    simp
  rw [this, List.length_filter_lt_length_iff_exists]
  have hmem := List.mem_of_find?_eq_some hn
  have heq : n.id = id := by simpa using List.find?_some hn
  exact ⟨n, by simp [hmem, heq, hid], by simp [heq]⟩

/-- The sweep of a queue of ids, each with the id that led to it, when some ids were met
before. -/
def sweepFrom (g : Graph) (queue : List (NodeId × NodeId)) (met : List NodeId) : List Step :=
  match queue with
  | [] => []
  | (id, referencedBy) :: rest =>
    if _ : id ∈ met then g.sweepFrom rest met
    else match _ : g.node? id with
      | none => .absent id referencedBy :: g.sweepFrom rest (id :: met)
      | some n => .present n :: g.sweepFrom (rest ++ g.followers n) (id :: met)
termination_by (g.unmet met, queue.length)
decreasing_by
  · exact Prod.Lex.right _ (by simp)
  · rcases Nat.lt_or_eq_of_le (g.unmet_cons_le met id) with h | h
    · exact Prod.Lex.left _ _ h
    · rw [h]
      exact Prod.Lex.right _ (by simp)
  · rename_i hid hn
    exact Prod.Lex.left _ _ (unmet_cons_lt hn hid)

/-- The sweep that starts at an id, which some other id led to. -/
def sweep (g : Graph) (start : NodeId) (referencedBy : NodeId) : List Step :=
  g.sweepFrom [(start, referencedBy)] []

end Graph

end ScriptGraph
