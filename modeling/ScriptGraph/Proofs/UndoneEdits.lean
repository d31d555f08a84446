import ScriptGraph.Proofs.AddedNodes
import ScriptGraph.Proofs.EditedGraphs
import ScriptGraph.Proofs.FreshIds

/-!
# Undone edits

Connecting an edge puts it behind edges that differ from it, so that disconnecting it, which
takes the first edge of its kind, takes this one. A new node is undone by removing it only if no
edge named its id before, since removal takes the edges with it. In a store that was edited from
nothing or from a document every edge has its nodes, and then none names a fresh id.
-/
namespace ScriptGraph

namespace Graph

/-- No edge of a wired graph names an id without a node. -/
lemma Wired.isolated {g : Graph} (h : g.Wired) {id : NodeId}
    (hid : id ∉ g.nodes.map (·.id)) : g.Isolated id := by
  intro e he
  have hends := h e he
  exact ⟨fun hsource => hid (hends.mem_ids (.inl hsource)),
    fun htarget => hid (hends.mem_ids (.inr htarget))⟩

lemma nodes_erase (g : Graph) (id : NodeId) :
    (g.erase id).nodes = g.nodes.filter (fun n => n.id ≠ id) :=
  List.filter_congr fun n _ => Bool.eq_iff_iff.2 (by simp)

lemma edges_erase (g : Graph) (id : NodeId) :
    (g.erase id).edges = g.edges.filter (fun e => e.source ≠ id ∧ e.target ≠ id) :=
  List.filter_congr fun e _ => Bool.eq_iff_iff.2 (by simp)

end Graph

namespace Store

variable {s s' : Store} {e : Edge} {id : NodeId}

/-- What edits begin with: an empty store, or one that was made of a document. -/
inductive Initial : Store → Prop
  | empty (registry : Registry) : Initial (new registry)
  | imported {d : Document} {registry : Registry} {s : Store} :
      d.toStore registry = .ok s → Initial s

lemma Initial.wired (h : s.Initial) : s.graph.Wired := by
  cases h with
  | empty registry => exact (wellFormed_new registry).wired
  | imported hstore => exact Document.wired_of_toStore hstore

/-- The edge that was connected is the first of its kind. -/
lemma disconnect_of_connect (h : s.connect e = .ok s') : s'.disconnect e = .ok s := by
  obtain ⟨-, hnew, rfl⟩ := connect_outcome h
  have herase : (s.graph.edges ++ [e]).erase e = s.graph.edges := by
    rw [List.erase_append_right _ hnew]
    simp
  simp [disconnect, herase]

lemma disconnect_outcome (h : s.disconnect e = .ok s') : ∃ before after,
    s.graph.edges = before ++ e :: after ∧ e ∉ before ∧
      s' = ⟨⟨s.graph.nodes, before ++ after⟩, s.registry, s.nextId⟩ := by
  unfold disconnect at h
  split_ifs at h with hmem
  obtain ⟨before, after, hfirst, hedges, herase⟩ := List.exists_erase_eq hmem
  exact ⟨before, after, hedges, hfirst, by rw [← herase]; exact (Except.ok.inj h).symm⟩

lemma remove_of_mem (h : id ∈ s.graph.nodes.map (·.id)) :
    s.remove id = .ok ⟨s.graph.erase id, s.registry, s.nextId⟩ :=
  if_pos (Graph.contains_iff.2 h)

lemma remove_outcome (h : s.remove id = .ok s') :
    s' = ⟨s.graph.erase id, s.registry, s.nextId⟩ := by
  unfold remove at h
  split_ifs at h
  exact (Except.ok.inj h).symm

/-- Removal takes back a new node, where no edge named its id. -/
lemma remove_of_add {template : Template} {parameters : Parameters} {position : Position}
    {n : Node} (h : s.add template parameters position = .ok (s', n))
    (hisolated : s.graph.Isolated n.id) :
    s'.remove n.id = .ok ⟨s.graph, s.registry, s'.nextId⟩ := by
  have hfresh := (add_outcome h).2.1
  obtain ⟨body, -, -, rfl⟩ := exists_body_of_add h
  rw [remove_of_mem (by simp), Graph.erase_add hfresh hisolated]

/-- What undoes what. An edge that was connected can be disconnected again, and nothing is left of
it. Disconnecting takes exactly the first occurrence of an edge, and removal exactly the nodes
with an id and the edges that touch it. In a store that was edited from nothing or from a
document, a node that was added can be removed again, and nothing is left but the counter. -/
theorem edits_undone (s : Store) :
    (∀ e s', s.connect e = .ok s' → s'.disconnect e = .ok s) ∧
    (∀ e s', s.disconnect e = .ok s' → ∃ before after,
      s.graph.edges = before ++ e :: after ∧ e ∉ before ∧
        s' = ⟨⟨s.graph.nodes, before ++ after⟩, s.registry, s.nextId⟩) ∧
    (∀ id s', s.remove id = .ok s' →
      (∀ n ∈ s'.graph.nodes, n.id ≠ id) ∧
      (∀ e ∈ s'.graph.edges, e.source ≠ id ∧ e.target ≠ id) ∧
      s'.graph.nodes = s.graph.nodes.filter (fun n => n.id ≠ id) ∧
      s'.graph.edges = s.graph.edges.filter (fun e => e.source ≠ id ∧ e.target ≠ id) ∧
      s'.registry = s.registry ∧ s'.nextId = s.nextId) ∧
    ∀ start edits, Initial start → start.applyAll edits = .ok s →
      ∀ template parameters position s' n, s.add template parameters position = .ok (s', n) →
        s'.remove n.id = .ok ⟨s.graph, s.registry, s'.nextId⟩ ∧ s.nextId < s'.nextId := by
  refine ⟨fun e s' h => disconnect_of_connect h, fun e s' h => disconnect_outcome h,
    fun id s' h => ?_, fun start edits hstart h template parameters position s' n hadd => ?_⟩
  · obtain rfl := remove_outcome h
    refine ⟨fun n hn => ?_, fun e he => ?_, Graph.nodes_erase _ _, Graph.edges_erase _ _, rfl, rfl⟩
    · rw [Graph.nodes_erase] at hn
      exact of_decide_eq_true (List.mem_filter.1 hn).2
    · rw [Graph.edges_erase] at he
      exact of_decide_eq_true (List.mem_filter.1 he).2
  · have hwired := wired_of_applyAll h hstart.wired
    obtain ⟨-, hfresh, -⟩ := add_outcome hadd
    obtain ⟨-, -, hnext⟩ := add_eq_ok hadd
    exact ⟨remove_of_add hadd (hwired.isolated hfresh),
      hnext ▸ Nat.lt_succ_of_le s.nextId_le_freshIndex⟩

/-- A graph in which an edge stands twice, with another one between. -/
def braided : Graph where
  nodes := [⟨"x", default, .conditional {}⟩, ⟨"y", default, .continueIf {}⟩]
  edges := [⟨"x", .whenTrue, "y", .input⟩, ⟨"x", .whenFalse, "y", .input⟩,
    ⟨"x", .whenTrue, "y", .input⟩]

/-- In the braided graph an edge is connected and disconnected again, the repeated edge is
disconnected once, and a node is removed. After a long session a node is added and removed. -/
theorem edits_undone_braided :
    (∃ s', (ofGraph braided .empty).connect ⟨"y", .output, "x", .input⟩ = .ok s' ∧
      s'.disconnect ⟨"y", .output, "x", .input⟩ = .ok (ofGraph braided .empty)) ∧
    (∃ s' before after,
      (ofGraph braided .empty).disconnect ⟨"x", .whenTrue, "y", .input⟩ = .ok s' ∧
      braided.edges = before ++ ⟨"x", .whenTrue, "y", .input⟩ :: after ∧
      ⟨"x", .whenTrue, "y", .input⟩ ∉ before ∧ s'.graph.edges = before ++ after) ∧
    (∃ s', (ofGraph braided .empty).remove "x" = .ok s' ∧ (∀ n ∈ s'.graph.nodes, n.id ≠ "x") ∧
      s'.graph.edges = []) ∧
    ∃ s s' n, (new .builtIn).applyAll session = .ok s ∧
      s.add .conditional .empty default = .ok (s', n) ∧
      s'.remove n.id = .ok ⟨s.graph, s.registry, s'.nextId⟩ ∧ s.nextId < s'.nextId := by
  obtain ⟨hconnect, hdisconnect, hremove, -⟩ := edits_undone (ofGraph braided .empty)
  refine ⟨?_, ?_, ?_, ?_⟩
  · obtain ⟨s', h⟩ : ∃ s', (ofGraph braided .empty).connect ⟨"y", .output, "x", .input⟩ = .ok s' :=
      ⟨_, rfl⟩
    exact ⟨s', h, hconnect _ s' h⟩
  · obtain ⟨s', h⟩ : ∃ s',
        (ofGraph braided .empty).disconnect ⟨"x", .whenTrue, "y", .input⟩ = .ok s' := ⟨_, rfl⟩
    obtain ⟨before, after, hedges, hfirst, hresult⟩ := hdisconnect _ s' h
    exact ⟨s', before, after, h, hedges, hfirst, by rw [hresult]⟩
  · obtain ⟨s', h⟩ : ∃ s', (ofGraph braided .empty).remove "x" = .ok s' := ⟨_, rfl⟩
    obtain ⟨hnodes, -, -, hedges, -⟩ := hremove "x" s' h
    exact ⟨s', h, hnodes, hedges.trans (by decide)⟩
  · have hview : ((new .builtIn).applyAll session).toOption.map
        (fun s => (s.add .conditional .empty default).toOption.map (·.2.id)) =
        some (some "node_4") := by cbv
    obtain ⟨s, hs, hadded⟩ := exists_ok_of_map hview
    obtain ⟨⟨s', n⟩, hadd, -⟩ := exists_ok_of_map hadded
    exact ⟨s, s', n, hs, hadd, (edits_undone s).2.2.2 _ session (.empty .builtIn) hs
      .conditional .empty default s' n hadd⟩

end Store

end ScriptGraph
