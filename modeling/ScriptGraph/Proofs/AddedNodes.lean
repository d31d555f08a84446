import ScriptGraph.Proofs.DeadNodes
import ScriptGraph.Proofs.EditHistories

/-!
# Nodes that were just added

The id of a new node is one that no node has, but edges may name it: a graph that was not
built by edits can have edges to ids without a node. Such an edge is taken over by a node
that is added under its id. All other new nodes have no edges, so no traversal call visits
them, and unless they are triggers the compilation is the same with and without them.
-/
namespace ScriptGraph

namespace Graph

/-- An edge names the id, but no node has it. -/
def DanglesAt (g : Graph) (id : NodeId) : Prop :=
  id ∉ g.nodes.map (·.id) ∧ ∃ e ∈ g.edges, e.source = id ∨ e.target = id

section Isolated

variable {g g' : Graph} {d id : NodeId}

lemma isolated_iff : g.Isolated id ↔ ¬ ∃ e ∈ g.edges, e.source = id ∨ e.target = id := by
  simp [Isolated]

/-- Where there are no new edges at an id, and its node is not taken away, it does not come
to dangle. -/
lemma DanglesAt.mono (h : g'.DanglesAt id)
    (hnodes : id ∈ g.nodes.map (·.id) → id ∈ g'.nodes.map (·.id))
    (hedges : ∀ e ∈ g'.edges, e.source = id ∨ e.target = id → e ∈ g.edges) :
    g.DanglesAt id := by
  obtain ⟨hnone, e, he, hend⟩ := h
  exact ⟨fun hmem => hnone (hnodes hmem), e, hedges e he hend, hend⟩

/-- Only ids with a node are connected. -/
lemma Connectable.mem_ids {e : Edge} (h : g.Connectable e) (hend : e.source = id ∨ e.target = id) :
    id ∈ g.nodes.map (·.id) := by
  obtain ⟨source, target, hsource, htarget, -⟩ := h
  have hsome : (g.variantOf? id).isSome := by
    rcases hend with rfl | rfl
    · rw [hsource]
      rfl
    · rw [htarget]
      rfl
  exact node?_isSome_iff.1 (by simpa [variantOf?] using hsome)

/-- A compilation goes along edges, so it never comes to an id without any. -/
lemma Isolated.avoids (h : g.Isolated d) {registry : Registry} {options : Options}
    {entry : NodeId} {call : Call} {others : List (NodeId × Call)} {out : Emission Script}
    (ht : g.timings = (entry, call) :: others)
    (hrun : Context.run ⟨g, registry, options⟩ = .ok out) : Context.Avoids d out.events := by
  intro r hr hd
  have hreach : ∀ id ∈ r.visited, g.Live entry id ∧ (g.node? id).isSome :=
    reaches_of_run (c := ⟨g, registry, options⟩) ht hrun _ hr
  obtain ⟨e, he, htarget⟩ := (hreach d hd).1.exists_edge
  exact (h e he).2 htarget

/-- An id without edges, under which there is neither a trigger nor a chosen slot, makes no
difference to any compilation. -/
lemma Isolated.compile_erase_eq (h : g.Isolated d) (hd : d ∈ g.nodes.map (·.id))
    (hkind : ∀ n ∈ g.nodes, n.id = d → n.variant ≠ .timing ∧ n.chosenSlot? = none)
    (registry : Registry) (options : Options) :
    (g.erase d).compile registry options = g.compile registry options := by
  cases ht : g.timings with
  | nil =>
    have ht' : (g.erase d).timings = [] := by
      rw [timings_erase fun n hn hid => (hkind n hn hid).1, ht]
    simp only [compile, Context.run, ht, ht']
  | cons first others =>
    obtain ⟨entry, call⟩ := first
    obtain ⟨out, hrun⟩ : ∃ out, Context.run ⟨g, registry, options⟩ = .ok out :=
      ⟨_, Context.run_eq ht⟩
    obtain ⟨out', hrun', hspares⟩ :=
      Context.spares_run ht hrun (h.avoids ht hrun) (node?_isSome_iff.2 hd) hkind
    obtain ⟨hevents, -⟩ := hspares.isolated h rfl
    have hsame : Compilation.ofEmission out' = .ofEmission out := by
      unfold Compilation.ofEmission
      rw [hspares.value, hevents, hspares.alike.allocation]
    calc (g.erase d).compile registry options = .ok (.ofEmission out') :=
          congrArg (Except.map _) hrun'
      _ = .ok (.ofEmission out) := by rw [hsame]
      _ = g.compile registry options := (congrArg (Except.map _) hrun).symm

/-- To remove a node that was just added is to undo it. -/
lemma erase_add {n : Node} (hn : n.id ∉ g.nodes.map (·.id)) (h : g.Isolated n.id) :
    erase ⟨g.nodes ++ [n], g.edges⟩ n.id = g := by
  have hnodes : g.nodes.filter (·.id != n.id) = g.nodes := by
    refine List.filter_eq_self.2 fun m hm => ?_
    have hne : m.id ≠ n.id := fun he => hn (he ▸ List.mem_map_of_mem hm)
    simpa using hne
  have hedges : (g.edges.filter fun e => e.source != n.id && e.target != n.id) = g.edges :=
    List.filter_eq_self.2 fun e he => by simpa using h e he
  unfold erase
  rw [List.filter_append, hnodes, hedges]
  simp

end Isolated

end Graph

namespace Store

open ScriptGraph.Graph (knot)

variable {s s' : Store}

/-- Edits do not leave edges without their ends. -/
lemma EditOutcome.danglesAt {id : NodeId} (h : s.EditOutcome s')
    (hdangles : s'.graph.DanglesAt id) : s.graph.DanglesAt id := by
  cases h with
  | added _ =>
    refine hdangles.mono (fun hmem => ?_) fun e he _ => he
    rw [List.map_append]
    exact List.mem_append_left _ hmem
  | edited hnodes _ hkeeps =>
    refine hdangles.mono (fun hmem => ?_) fun e he _ => he
    rw [hnodes] at hmem
    simpa [hkeeps.id_eq] using hmem
  | @removed removed =>
    obtain ⟨hnone, e, he, hend⟩ := hdangles
    obtain ⟨he, hkept⟩ := List.mem_filter.1 he
    simp only [Bool.and_eq_true, bne_iff_ne] at hkept
    -- The edge was kept, so its ends are not the id that was removed.
    have hid : id ≠ removed := by
      rcases hend with rfl | rfl
      · exact hkept.1
      · exact hkept.2
    refine ⟨fun hmem => hnone ?_, e, he, hend⟩
    obtain ⟨n, hn, rfl⟩ := List.mem_map.1 hmem
    exact List.mem_map_of_mem (List.mem_filter.2 ⟨hn, by simpa using hid⟩)
  | connected hconnectable _ =>
    obtain ⟨hnone, e, he, hend⟩ := hdangles
    rcases List.mem_append.1 he with he | he
    · exact ⟨hnone, e, he, hend⟩
    · obtain rfl := List.mem_singleton.1 he
      exact absurd (hconnectable.mem_ids hend) hnone
  | disconnected => exact hdangles.mono (fun hmem => hmem) fun e he _ => List.mem_of_mem_erase he

lemma danglesAt_of_applyAll {g : Graph} {registry : Registry} {edits : List Edit} {id : NodeId}
    (h : (ofGraph g registry).applyAll edits = .ok s) (hdangles : s.graph.DanglesAt id) :
    g.DanglesAt id :=
  applyAll_induction (P := fun t => t.graph.DanglesAt id → g.DanglesAt id)
    (fun _ _ hout ht hd => ht (hout.danglesAt hd)) h (fun hd => hd) hdangles

/-- What is added: one node under the fresh id, without a slot of its own choice. -/
lemma add_outcome {template : Template} {parameters : Parameters} {position : Position}
    {n : Node} (h : s.add template parameters position = .ok (s', n)) :
    s'.graph = ⟨s.graph.nodes ++ [n], s.graph.edges⟩ ∧ n.id ∉ s.graph.nodes.map (·.id) ∧
      n.chosenSlot? = none := by
  obtain ⟨body, hbody, rfl, rfl⟩ := exists_body_of_add h
  refine ⟨rfl, s.idOf_freshIndex_notMem, ?_⟩
  cases template with
  | function name =>
    cases hlookup : s.registry.lookup? name with
    | none => simp [templateBody, hlookup] at hbody
    | some schema =>
      cases hcategory : schema.category <;>
        simp only [templateBody, hlookup, hcategory] at hbody <;> cases hbody <;> rfl
  | _ => cases hbody; rfl

/-- A node that is added takes over the edges that name its id, and there are some only if the
graph that the history began with had edges to an id without a node. Where there are none, the
new node makes no difference to any compilation, unless it is a trigger. -/
theorem compile_add (g : Graph) (registry : Registry) (edits : List Edit) (s s' : Store)
    (template : Template) (parameters : Parameters) (position : Position) (n : Node)
    (h : (ofGraph g registry).applyAll edits = .ok s)
    (hadd : s.add template parameters position = .ok (s', n)) (hv : n.variant ≠ .timing) :
    (s'.graph.Isolated n.id ↔ ¬ s.graph.DanglesAt n.id) ∧
      (s.graph.DanglesAt n.id → g.DanglesAt n.id) ∧
      (¬ s.graph.DanglesAt n.id → ∀ registry' options,
        s'.graph.compile registry' options = s.graph.compile registry' options) := by
  obtain ⟨hgraph, hfresh, hchosen⟩ := add_outcome hadd
  have hisolated : s.graph.Isolated n.id ↔ ¬ s.graph.DanglesAt n.id := by
    rw [Graph.isolated_iff]
    exact ⟨fun hnone hd => hnone hd.2, fun hd hsome => hd ⟨hfresh, hsome⟩⟩
  rw [hgraph]
  refine ⟨hisolated, danglesAt_of_applyAll h, fun hd registry' options => ?_⟩
  have hnone := hisolated.2 hd
  have herase := Graph.erase_add hfresh hnone
  have hkind : ∀ m ∈ s.graph.nodes ++ [n], m.id = n.id →
      m.variant ≠ .timing ∧ m.chosenSlot? = none := by
    intro m hm hid
    rcases List.mem_append.1 hm with hm | hm
    · exact absurd (hid ▸ List.mem_map_of_mem hm) hfresh
    · rw [List.mem_singleton.1 hm]
      exact ⟨hv, hchosen⟩
  have hsame := Graph.Isolated.compile_erase_eq (g := ⟨s.graph.nodes ++ [n], s.graph.edges⟩)
    hnone (by simp) hkind registry' options
  rw [herase] at hsame
  exact hsame.symm

/-- In the knot, which has an edge to an id without a node, and after a first node was added, a
second one makes no difference. -/
theorem compile_add_knot : ∃ s s' n,
    (ofGraph knot .empty).applyAll [.add .continueIf .empty default] = .ok s ∧
      s.add .conditional .empty default = .ok (s', n) ∧ n.variant ≠ .timing ∧
      n.id = "node_1" ∧ s.graph.DanglesAt "gone" ∧ ¬ s.graph.DanglesAt n.id ∧
      s'.graph.Isolated n.id ∧ s'.graph.compile .empty {} = s.graph.compile .empty {} := by
  have hview : ((ofGraph knot .empty).applyAll [.add .continueIf .empty default]).toOption.map
      (fun s => (s.graph, (s.add .conditional .empty default).toOption.map
        fun added => (added.2.id, added.2.variant))) =
      some (⟨knot.nodes ++ [⟨"node_0", default, .continueIf default⟩], knot.edges⟩,
        some ("node_1", .conditional)) := by cbv
  obtain ⟨s, hs, hparts⟩ := exists_ok_of_map hview
  obtain ⟨hgraph, hadded⟩ := Prod.mk.inj hparts
  obtain ⟨⟨s', n⟩, hadd, hn⟩ := exists_ok_of_map hadded
  obtain ⟨hid, hvariant⟩ : n.id = "node_1" ∧ n.variant = .conditional := Prod.mk.inj hn
  have hv : n.variant ≠ .timing := by simp [hvariant]
  have hgone : s.graph.DanglesAt "gone" := by
    rw [hgraph]
    unfold Graph.DanglesAt
    decide
  have hfree : ¬ s.graph.DanglesAt n.id := by
    rw [hgraph, hid]
    unfold Graph.DanglesAt
    decide
  obtain ⟨hisolated, -, hsame⟩ :=
    compile_add knot .empty _ s s' .conditional .empty default n hs hadd hv
  exact ⟨s, s', n, hs, hadd, hv, hid, hgone, hfree, hisolated.2 hfree, hsame hfree .empty {}⟩

/-- A trigger with an edge to an id that no node has yet. -/
def loose : Graph where
  nodes := [⟨"start", default, .timing ⟨"RoundStart", .empty⟩⟩]
  edges := [⟨"start", .output, "node_0", .input⟩]

/-- The first node that is added gets this id, and the edge with it. What was reported as
missing is now a part of the script. -/
theorem add_takes_loose_edge : ∃ s' n,
    (ofGraph loose .builtIn).add .continueIf .empty default = .ok (s', n) ∧
      n.variant ≠ .timing ∧ ¬ s'.graph.Isolated n.id ∧
      ∃ before after : Compilation, loose.compile .builtIn {} = .ok before ∧
        s'.graph.compile .builtIn {} = .ok after ∧
        before.diagnostics = [.nodeNotFound "node_0" "start"] ∧ after.diagnostics = [] ∧
        before.script.text = "Modular/TIMING:RoundStart/" ∧
        after.script.text = "Modular/TIMING:RoundStart/CONTINUEIF()/" := by
  have hview : ((ofGraph loose .builtIn).add .continueIf .empty default).toOption.map
      (fun added => (added.1.graph, added.2)) =
      some (⟨loose.nodes ++ [⟨"node_0", default, .continueIf default⟩], loose.edges⟩,
        ⟨"node_0", default, .continueIf default⟩) := by cbv
  have hbefore : (loose.compile .builtIn {}).toOption.map
      (fun result => (result.diagnostics, result.script.text)) =
      some ([.nodeNotFound "node_0" "start"], "Modular/TIMING:RoundStart/") := by cbv
  have hafter : (Graph.compile ⟨loose.nodes ++ [⟨"node_0", default, .continueIf default⟩],
        loose.edges⟩ .builtIn {}).toOption.map
      (fun result => (result.diagnostics, result.script.text)) =
      some ([], "Modular/TIMING:RoundStart/CONTINUEIF()/") := by cbv
  obtain ⟨⟨s', n⟩, hadd, hadded⟩ := exists_ok_of_map hview
  obtain ⟨hgraph, rfl⟩ := Prod.mk.inj hadded
  obtain ⟨before, hok, hreport⟩ := exists_ok_of_map hbefore
  obtain ⟨after, hok', hreport'⟩ := exists_ok_of_map hafter
  obtain ⟨hdiagnostics, htext⟩ := Prod.mk.inj hreport
  obtain ⟨hdiagnostics', htext'⟩ := Prod.mk.inj hreport'
  rw [← hgraph] at hok'
  refine ⟨s', _, hadd, by decide, ?_, before, after, hok, hok', hdiagnostics, hdiagnostics', htext,
    htext'⟩
  rw [hgraph]
  unfold Graph.Isolated
  decide

end Store

end ScriptGraph
