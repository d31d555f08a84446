import Mathlib
import ScriptGraph.Pass.Walk

/-!
# Routes through a graph

Relations that say where a compilation can go, independently of any queue. An id is
passed through if its node exists and is no trigger. Output routes are what one sweep
can follow; followed steps add the first edge of each branch of a conditional.
-/
namespace ScriptGraph

lemma Node.variant_eq_conditional {n : Node} :
    n.variant = .conditional ↔ ∃ condition, n.body = .conditional condition := by
  cases hbody : n.body <;> simp [Node.variant, hbody, Body.variant]

namespace Graph

/-- The id stands for a node that is no trigger. -/
def Passable (g : Graph) (id : NodeId) : Prop :=
  ∃ n, g.node? id = some n ∧ n.variant ≠ .timing

/-- The id stands for a conditional. -/
def IsConditional (g : Graph) (id : NodeId) : Prop :=
  ∃ n, g.node? id = some n ∧ n.variant = .conditional

/-- One output edge, out of a node that is passed through. -/
def OutputStep (g : Graph) (u v : NodeId) : Prop :=
  g.Passable u ∧ ∃ e ∈ g.edges, e.source = u ∧ e.sourceHandle = .output ∧ e.target = v

/-- The handles of the two branches. -/
def IsBranch (h : Handle) : Prop := h = .whenTrue ∨ h = .whenFalse

/-- The first edge of one branch of a conditional. -/
def BranchStep (g : Graph) (u v : NodeId) : Prop :=
  g.IsConditional u ∧
    ∃ h e, IsBranch h ∧ (g.outgoing u h).head? = some e ∧ e.target = v

/-- One step of a compilation away from a visited node. -/
def FollowedStep (g : Graph) (u v : NodeId) : Prop := g.OutputStep u v ∨ g.BranchStep u v

/-- Followed steps, zero or more. -/
abbrev Follows (g : Graph) : NodeId → NodeId → Prop := Relation.ReflTransGen g.FollowedStep

/-- A route of output edges with its length. Every id before the last is passed through. -/
inductive OutputRoute (g : Graph) (start : NodeId) : ℕ → NodeId → Prop
  | nil : OutputRoute g start 0 start
  | snoc {k : ℕ} {u v : NodeId} :
      OutputRoute g start k u → g.OutputStep u v → OutputRoute g start (k + 1) v

/-- The length of a shortest output route. -/
noncomputable def outputDistance (g : Graph) (start id : NodeId) : ℕ :=
  sInf {k | g.OutputRoute start k id}

lemma outputDistance_le {g : Graph} {start id : NodeId} {k : ℕ}
    (h : g.OutputRoute start k id) : g.outputDistance start id ≤ k := Nat.sInf_le h

lemma outputRoute_outputDistance {g : Graph} {start id : NodeId} {k : ℕ}
    (h : g.OutputRoute start k id) : g.OutputRoute start (g.outputDistance start id) id :=
  Nat.sInf_mem (s := {k | g.OutputRoute start k id}) ⟨k, h⟩

lemma OutputRoute.follows {g : Graph} {start id : NodeId} {k : ℕ}
    (h : g.OutputRoute start k id) : g.Follows start id := by
  induction h with
  | nil => exact .refl
  | snoc _ hs ih => exact ih.tail (.inl hs)

@[simp] theorem mem_outgoing {g : Graph} {id : NodeId} {h : Handle} {e : Edge} :
    e ∈ g.outgoing id h ↔ e ∈ g.edges ∧ e.source = id ∧ e.sourceHandle = h := by
  simp [outgoing]

/-- Whatever is stepped to is the target of an edge. -/
lemma FollowedStep.exists_edge {g : Graph} {u v : NodeId} (h : g.FollowedStep u v) :
    ∃ e ∈ g.edges, e.target = v := by
  rcases h with ⟨-, e, he, -, -, htarget⟩ | ⟨-, handle, e, -, hhead, htarget⟩
  · exact ⟨e, he, htarget⟩
  · exact ⟨e, (mem_outgoing.1 (List.mem_of_head? hhead)).1, htarget⟩

lemma contains_iff {g : Graph} {id : NodeId} :
    g.contains id = true ↔ id ∈ g.nodes.map (·.id) := by
  simp [contains]

lemma node?_id {g : Graph} {id : NodeId} {n : Node} (h : g.node? id = some n) : n.id = id := by
  simpa using List.find?_some h

lemma node?_isSome_iff {g : Graph} {id : NodeId} :
    (g.node? id).isSome ↔ id ∈ g.nodes.map (·.id) := by
  simp [node?, List.find?_isSome]

/-- A node found under some id is found under its own. -/
lemma node?_self {g : Graph} {id : NodeId} {n : Node} (h : g.node? id = some n) :
    g.node? n.id = some n := by
  rwa [node?_id h]

/-- In a graph with distinct ids a node is what its id stands for. -/
lemma node?_of_mem {g : Graph} (hids : (g.nodes.map (·.id)).Nodup) {n : Node}
    (hn : n ∈ g.nodes) : g.node? n.id = some n := by
  have hsome : (g.node? n.id).isSome := List.find?_isSome.2 ⟨n, hn, by simp⟩
  obtain ⟨m, hm⟩ := Option.isSome_iff_exists.1 hsome
  rw [hm, List.inj_on_of_nodup_map hids (List.mem_of_find?_eq_some hm) hn (node?_id hm)]

lemma exists_node_of_mem_timings {g : Graph} {entry : NodeId} {call : Call}
    (h : (entry, call) ∈ g.timings) : ∃ n ∈ g.nodes, n.id = entry ∧ n.body = .timing call := by
  obtain ⟨n, hn, hbody⟩ := List.mem_filterMap.1 h
  refine ⟨n, hn, ?_⟩
  cases hb : n.body <;> simp_all

/-- Taking the nodes of one id away leaves what other ids stand for. -/
lemma node?_filter {nodes : List Node} {edges edges' : List Edge} {id removed : NodeId}
    (h : id ≠ removed) :
    node? ⟨nodes.filter (·.id != removed), edges'⟩ id = node? ⟨nodes, edges⟩ id := by
  unfold node?
  rw [List.find?_filter]
  congr 1
  funext n
  by_cases hn : n.id = id
  · simp [hn, h]
  · simp [hn]

/-- The output steps out of a found node are its followers. -/
lemma outputStep_iff {g : Graph} {n : Node} {v : NodeId} (h : g.node? n.id = some n) :
    g.OutputStep n.id v ↔ (v, n.id) ∈ g.followers n := by
  unfold OutputStep Passable followers
  by_cases ht : n.variant = .timing
  · simp [h, ht]
  · simp [h, ht, and_assoc]

lemma outputStep_of_mem_followers {g : Graph} {n : Node} {entry : NodeId × NodeId}
    (hn : g.node? n.id = some n) (h : entry ∈ g.followers n) : g.OutputStep n.id entry.1 := by
  have hsource : entry.2 = n.id := by
    unfold followers at h
    split_ifs at h
    · simp at h
    · obtain ⟨e, -, rfl⟩ := List.mem_map.1 h
      rfl
  exact (outputStep_iff hn).2 (hsource ▸ h)

lemma not_outputStep_of_absent {g : Graph} {id v : NodeId} (h : g.node? id = none) :
    ¬ g.OutputStep id v := by
  rintro ⟨⟨n, hn, -⟩, -⟩
  simp [h] at hn

lemma mem_firstNodes {nodes : List Node} {n : Node} :
    n ∈ firstNodes nodes ↔ nodes.find? (·.id == n.id) = some n := by
  induction nodes with
  | nil => simp [firstNodes]
  | cons m rest ih =>
    by_cases hid : m.id = n.id
    · simp [firstNodes, hid, eq_comm]
    · have hne : n ≠ m := fun h => hid (by rw [h])
      simp [firstNodes, hne, ih, Ne.symm hid, hid]

lemma nodup_firstNodes_ids (nodes : List Node) : ((firstNodes nodes).map (·.id)).Nodup := by
  induction nodes with
  | nil => simp [firstNodes]
  | cons n rest ih =>
    simp only [firstNodes, List.map_cons, List.nodup_cons, List.mem_map, List.mem_filter,
      bne_iff_ne, ne_eq, not_exists, not_and, and_imp]
    refine ⟨fun m _ hm h => hm h, ?_⟩
    exact ih.sublist (List.filter_sublist.map _)

@[simp] theorem mem_conditionalIds {g : Graph} {id : NodeId} :
    id ∈ g.conditionalIds ↔ g.IsConditional id := by
  simp only [conditionalIds, List.mem_map, List.mem_filter, beq_iff_eq, IsConditional]
  constructor
  · rintro ⟨n, ⟨hn, hv⟩, rfl⟩
    exact ⟨n, mem_firstNodes.1 hn, hv⟩
  · rintro ⟨n, hn, hv⟩
    have hid := node?_id hn
    subst hid
    exact ⟨n, ⟨mem_firstNodes.2 hn, hv⟩, rfl⟩

lemma nodup_conditionalIds (g : Graph) : g.conditionalIds.Nodup :=
  (nodup_firstNodes_ids g.nodes).sublist (List.filter_sublist.map _)

/-- The list of conditional ids is as long as there are such ids. -/
lemma length_conditionalIds (g : Graph) :
    g.conditionalIds.length = {id | g.IsConditional id}.ncard := by
  have he : {id | g.IsConditional id} = (g.conditionalIds.toFinset : Set NodeId) := by
    ext id
    simp
  rw [he, Set.ncard_coe_finset, List.toFinset_card_of_nodup g.nodup_conditionalIds]

/-- A small graph for examples. The true branch of its conditional leads back before the
conditional, the false branch leads to an id without a node, and the last node leads back
to the trigger. -/
def knot : Graph where
  nodes := [⟨"start", default, .timing ⟨"Begin", .empty⟩⟩, ⟨"stop", default, .continueIf {}⟩,
    ⟨"check", default, .conditional {}⟩, ⟨"strike", default, .consequence ⟨"Strike", .empty⟩⟩]
  edges := [⟨"start", .output, "stop", .input⟩, ⟨"stop", .output, "check", .input⟩,
    ⟨"stop", .output, "strike", .input⟩, ⟨"check", .whenTrue, "stop", .input⟩,
    ⟨"check", .whenFalse, "gone", .input⟩, ⟨"strike", .output, "start", .input⟩]

end Graph

/-- A view of a result shows that there is one. -/
lemma exists_ok_of_map {ε α β : Type} {x : Except ε α} {f : α → β} {b : β}
    (h : x.toOption.map f = some b) : ∃ a, x = .ok a ∧ f a = b := by
  cases x with
  | error e => simp [Except.toOption] at h
  | ok a => exact ⟨a, rfl, by simpa [Except.toOption] using h⟩

/-- What is made of a result shows that there is one. -/
lemma exists_of_map_eq_ok {ε α β : Type} {x : Except ε α} {f : α → β} {b : β}
    (h : x.map f = .ok b) : ∃ a, x = .ok a ∧ f a = b := by
  cases x with
  | error e => cases h
  | ok a => exact ⟨a, rfl, Except.ok.inj h⟩

end ScriptGraph
