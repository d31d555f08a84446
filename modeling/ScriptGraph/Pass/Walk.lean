import ScriptGraph.Pass.Arguments
import ScriptGraph.Pass.Sweep

/-!
# Walks

A walk turns one sweep into statements. At a conditional it starts a walk for each
branch. Inside the branches of a conditional the same conditional is not expanded again:
the conditionals that may still be expanded are handed down and get fewer with every
level, which is why walks end, whatever the limit on their number.
-/
namespace ScriptGraph

open Script (Statement)

namespace Graph

/-- The nodes that ids stand for: of those with one id, the first. -/
def firstNodes : List Node → List Node
  | [] => []
  | n :: rest => n :: (firstNodes rest).filter (·.id != n.id)

/-- The ids that stand for a conditional, each once. -/
def conditionalIds (g : Graph) : List NodeId :=
  ((firstNodes g.nodes).filter (·.variant == .conditional)).map (·.id)

end Graph

namespace Context

/-- How a branch of a conditional is followed from its target on. -/
abbrev Follow := NodeId → Progress → Emission (List Statement)

/-- The statement of a node that yields a value: an assignment to its slot, or a plain
call when the slots are used up. -/
def acquire (c : Context) (n : Node) (call : Call) (p : Progress) :
    Emission (Option Statement) :=
  match c.serialize p.allocation n.id call with
  | (none, problems) => ⟨none, problems.map .reported, p⟩
  | (some invocation, problems) =>
    match p.allocation.bind n.id n.chosenSlot? with
    | none =>
      ⟨some (.call invocation), problems.map .reported ++ [.reported (.slotsExhausted n.id)], p⟩
    | some (slot, allocation) =>
      ⟨some (.assign slot invocation),
        problems.map .reported
          ++ (if (p.allocation.slotOf? n.id).isSome then [] else [.bound n.id slot]),
        ⟨allocation, p.calls, p.limitReported⟩⟩

/-- The report of edges beyond the first on a branch. -/
def fanOut (c : Context) (id : NodeId) (handle : Handle) (ignored : List Edge) : List Event :=
  if c.options.warnOnFanOut ∧ ignored ≠ [] then
    [.reported (.branchFanOut id handle ignored.length)]
  else []

/-- One branch of a conditional. Only the first edge is followed, and only while the
limit on calls is not reached; reaching it is reported once. -/
def branch (c : Context) (id : NodeId) (follow : Follow) (handle : Handle) (p : Progress) :
    Emission (Option (List Statement)) :=
  match c.graph.outgoing id handle with
  | [] => ⟨none, [], p⟩
  | first :: ignored =>
    let fanOut := c.fanOut id handle ignored
    if p.calls < c.options.maxCalls then
      let walked := follow first.target p
      ⟨some walked.value, fanOut ++ .branched id handle first.target :: walked.events,
        walked.progress⟩
    else if p.limitReported then ⟨none, fanOut, p⟩
    else
      ⟨none, fanOut ++ [.reported (.limitReached id c.options.maxCalls)],
        ⟨p.allocation, p.calls, true⟩⟩

/-- Both branches of a conditional, the true one first. A true branch that is not there
is empty. -/
def expand (c : Context) (id : NodeId) (condition : Condition) (follow : Follow)
    (p : Progress) : Emission (Option Statement) :=
  let onTrue := c.branch id follow .whenTrue p
  let onFalse := c.branch id follow .whenFalse onTrue.progress
  ⟨some (.conditional condition.text (onTrue.value.getD []) onFalse.value),
    onTrue.events ++ onFalse.events, onFalse.progress⟩

/-- The statement of one visited node, if it gives one. -/
def visit (c : Context) (expandable : List NodeId)
    (follow : (id : NodeId) → id ∈ expandable → Follow) (n : Node) (p : Progress) :
    Emission (Option Statement) :=
  match n.body with
  | .timing _ => ⟨none, [.reported (.unexpectedTiming n.id)], p⟩
  | .valueAcquisition call => c.acquire n call p
  | .consequence call =>
    let (invocation, problems) := c.serialize p.allocation n.id call
    ⟨invocation.map .call, problems.map .reported, p⟩
  | .conditional condition =>
    if h : n.id ∈ expandable then c.expand n.id condition (follow n.id h) p
    else ⟨none, [.reported (.recursiveBranch n.id)], p⟩
  | .continueIf condition => ⟨some (.continueIf condition.text), [], p⟩
  | .assignment _ none => ⟨none, [.reported (.missingEmbedded n.id)], p⟩
  | .assignment _ (some embedded) => c.acquire n embedded.call p

/-- The statements of the steps of a sweep, in order. -/
def perform (c : Context) (expandable : List NodeId)
    (follow : (id : NodeId) → id ∈ expandable → Follow) :
    List Step → Progress → Emission (List Statement)
  | [], p => ⟨[], [], p⟩
  | .absent id referencedBy :: rest, p =>
    let others := c.perform expandable follow rest p
    ⟨others.value, .reported (.nodeNotFound id referencedBy) :: others.events, others.progress⟩
  | .present n :: rest, p =>
    let visited := c.visit expandable follow n p
    let others := c.perform expandable follow rest visited.progress
    ⟨visited.value.toList ++ others.value,
      .visited n.id n.variant :: visited.events ++ others.events, others.progress⟩

/-- Some ids less one of them. -/
def without (ids : List NodeId) (id : NodeId) : List NodeId := ids.filter (· != id)

@[simp] theorem mem_without {ids : List NodeId} {id other : NodeId} :
    other ∈ without ids id ↔ other ∈ ids ∧ other ≠ id := by
  simp [without]

theorem length_without_lt {ids : List NodeId} {id : NodeId} (h : id ∈ ids) :
    (without ids id).length < ids.length :=
  List.length_filter_lt_length_iff_exists.2 ⟨id, h, by simp⟩

/-- One traversal call: the statements of the sweep from an id. The branches of a
conditional are walked with the same list of expandable ids, less that conditional. -/
def walk (c : Context) (expandable : List NodeId) (start referencedBy : NodeId)
    (p : Progress) : Emission (List Statement) :=
  let steps := c.graph.sweep start referencedBy
  let walked := c.perform expandable
    (fun id _ target p => c.walk (without expandable id) target id p)
    steps ⟨p.allocation, p.calls + 1, p.limitReported⟩
  ⟨walked.value, .called ⟨start, steps.filterMap Step.visitedId?⟩ :: walked.events,
    walked.progress⟩
termination_by expandable.length
decreasing_by
  rename_i h
  exact length_without_lt h

end Context

end ScriptGraph
