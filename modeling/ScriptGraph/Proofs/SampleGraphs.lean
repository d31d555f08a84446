import ScriptGraph.Proofs.EditedGraphs
import ScriptGraph.Proofs.PlainImport
import ScriptGraph.Proofs.SampleDocuments
import ScriptGraph.Proofs.StrictImport
import ScriptGraph.Proofs.VisitFlow

/-!
# Sample documents load and compile

A sample document becomes a graph, and a store unless two of its back edges are the same. A
compilation of it has nothing to say against the graph: what it may report is fan-out, its own
limits, and branches that lead back. Without back edges none does, and no node is visited twice.
-/
namespace ScriptGraph

open Document (NodeEntry)

/-- No diagnostic tells of a fault of the graph: an id without a node, a misplaced or a second
trigger, a function that is not registered, an assignment of nothing, or a slot that no argument
can take. -/
structure Compilation.IsFaultless (result : Compilation) : Prop where
  connected : result.IsConnected
  registered : ∀ id function, .unknownFunction id function ∉ result.diagnostics
  embedded : ∀ id, .missingEmbedded id ∉ result.diagnostics
  oneEntry : ∀ id, .additionalEntryPoint id ∉ result.diagnostics
  placed : ∀ id slot, .substitutionSkipped id slot ∉ result.diagnostics

/-- The problems with a node that lacks something, and that of a second trigger. -/
def Diagnostic.isFault : Diagnostic → Bool
  | missingEmbedded _ => true
  | additionalEntryPoint _ => true
  | substitutionSkipped _ _ => true
  | _ => false

/-- A complete node causes none of them, unless it is a trigger. -/
lemma Context.Causes.isFault_eq_false {c : Context} {ids : List NodeId} {s : Step} {d : Diagnostic}
    (h : c.Causes ids s (.reported d))
    (hs : ∀ n, s = .present n → n.body.Complete c.registry ∧ n.variant ≠ .timing) :
    d.isFault = false := by
  cases h with
  | @omitted n _ homit =>
    rcases omission?_cases homit with ⟨rfl, -⟩ | ⟨rfl, -⟩ | ⟨rfl, slot, hbody⟩ | ⟨call, rfl, -⟩
    · rfl
    · rfl
    · exact absurd hbody ((hs n rfl).1.embedded slot)
    · rfl
  | @remarked n _ hremark =>
    cases hremark with
    | unplaced hcall hlookup hnone _ =>
      obtain ⟨hcomplete, hv⟩ := hs n rfl
      obtain ⟨schema, hschema, hparameters⟩ := hcomplete.registered _ hcall
      obtain rfl := Option.some.inj (hschema.symm.trans hlookup)
      exact absurd hnone (hparameters hv)
    | exhausted _ => rfl
  | notFound | fannedOut | limited => rfl

namespace Graph

variable {g : Graph} {registry : Registry} {options : Options} {result : Compilation}

/-- A wired graph of complete nodes with one trigger has no fault to report. -/
theorem Wired.isFaultless (hwired : g.Wired) {entry : NodeId} {call : Call}
    (hcomplete : ∀ n ∈ g.nodes, n.body.Complete registry) (ht : g.timings = [(entry, call)])
    (h : g.compile registry options = .ok result) : result.IsFaultless := by
  have hconnected := hwired.isConnected h
  have hregistered : ∀ id function, .unknownFunction id function ∉ result.diagnostics := by
    intro id function hmem
    obtain ⟨n, hn, call, hcall, hnone⟩ := unknownFunction_of_compile h hmem
    obtain ⟨schema, hschema, -⟩ := (hcomplete n hn).registered call hcall
    simp [hschema] at hnone
  obtain ⟨out, hrun, rfl⟩ := run_of_compile h
  set c : Context := ⟨g, registry, options⟩
  have hheader : (c.header c.start.allocation entry call).2 = [] := by
    obtain ⟨n, hn, -, hbody⟩ := exists_node_of_mem_timings (ht ▸ List.mem_cons_self)
    obtain ⟨schema, hschema, -⟩ := (hcomplete n hn).registered call (by rw [hbody]; rfl)
    exact Context.header_of_lookup? hschema
  -- So whatever is reported is caused by a live id, which stands for a node and no trigger.
  have hfault : ∀ d ∈ Event.diagnostics out.events, d.isFault = false := by
    intro d hd
    rcases exists_step_of_run (c := c) ht hrun (Event.mem_diagnostics.1 hd) with
      hpreamble | ⟨ids, s, hcause, htrue, hlive⟩
    · simp [hheader] at hpreamble
    · refine hcause.isFault_eq_false ?_
      rintro n rfl
      obtain ⟨m, hm, hv⟩ := hwired.passable_of_live hlive
      obtain rfl : n = m := Option.some.inj (htrue.symm.trans hm)
      exact ⟨hcomplete n (List.mem_of_find?_eq_some hm), hv⟩
  refine ⟨hconnected, hregistered, fun id hmem => ?_, fun id hmem => ?_, fun id slot hmem => ?_⟩
  · cases hfault _ hmem
  · cases hfault _ hmem
  · cases hfault _ hmem

/-- In a wired graph edges are refused only for being there already. -/
lemma Wired.repeated_of_firstRefusal (hwired : g.Wired) {error : EditError}
    (h : g.FirstRefusal error) : ∃ before e after, error = .duplicateEdge e ∧
      g.edges = before ++ e :: after ∧ e ∈ before := by
  obtain ⟨before, e, after, hedges, -, hrefuses⟩ := h
  obtain ⟨source, target, hsource, htarget, houtput, hinput⟩ : g.Connectable e :=
    hwired e (by simp [hedges])
  cases hrefuses with
  | missingSource hnone => exact absurd (hsource.symm.trans hnone) (by simp)
  | missingTarget _ hnone => exact absurd (htarget.symm.trans hnone) (by simp)
  | notOutput hsource' _ hnot =>
    obtain rfl := Option.some.inj (hsource.symm.trans hsource')
    exact absurd houtput hnot
  | notInput _ htarget' _ hnot =>
    obtain rfl := Option.some.inj (htarget.symm.trans htarget')
    exact absurd hinput hnot
  | repeated _ hmem => exact ⟨before, e, after, rfl, hedges, hmem⟩

end Graph

namespace Sample

open Store (idOf)

namespace Grown

lemma ids_nodup (s : Grown) : ((s.entry :: s.rest).map (·.id)).Nodup := by
  rw [s.ids]
  exact List.nodup_range.map Store.idOf_injective

lemma id_entry (s : Grown) : s.entry.id = idOf 0 := by
  have hat := congrArg (·[0]?) s.ids
  simpa using hat

lemma tree_nodup (s : Grown) : s.tree.Nodup := by
  refine List.Nodup.of_map (·.target) ?_
  rw [s.targets]
  exact (List.nodup_cons.1 s.ids_nodup).2

lemma length_tree (s : Grown) : s.tree.length = s.rest.length := by
  simpa using congrArg List.length s.targets

/-- A back edge is none of the edges of the tree, which lead forward. -/
lemma notMem_tree {s : Grown} {e : Edge} (he : e ∈ s.back) : e ∉ s.tree := by
  intro hmem
  obtain ⟨i, j, hlt, hsource, htarget⟩ := s.ascending e hmem
  obtain ⟨i', j', hle, hsource', htarget'⟩ := s.descending e he
  have hi := Store.idOf_injective (hsource.symm.trans hsource')
  have hj := Store.idOf_injective (htarget.symm.trans htarget')
  omega

/-- An edge that stands twice in the document stands twice among the back edges. -/
lemma repeated_back {s : Grown} {before after : List Edge} {e : Edge}
    (hedges : s.tree ++ s.back = before ++ e :: after) (he : e ∈ before) :
    ∃ between, s.back = between ++ e :: after ∧ e ∈ between := by
  rcases List.append_eq_append_iff.1 hedges with ⟨between, hbefore, hback⟩ | ⟨between, htree, hrest⟩
  · refine ⟨between, hback, ?_⟩
    rw [hbefore] at he
    rcases List.mem_append.1 he with he | he
    · exact absurd he (notMem_tree (by simp [hback]))
    · exact he
  · cases between with
    | nil =>
      have hback : s.back = e :: after := hrest.symm
      rw [List.append_nil] at htree
      exact absurd (htree ▸ he) (notMem_tree (by simp [hback]))
    | cons first between =>
      obtain ⟨rfl, -⟩ := List.cons.inj hrest
      have hdisjoint := List.disjoint_of_nodup_append (htree ▸ s.tree_nodup)
      exact absurd List.mem_cons_self (hdisjoint he)

/-- The graph has the nodes and the edges of the document. -/
structure Makes (s : Grown) (g : Graph) (node : NodeEntry → Node) : Prop where
  nodes : g.nodes = (s.entry :: s.rest).map node
  edges : g.edges = s.tree ++ s.back
  loads : ∀ e ∈ s.entry :: s.rest, e.toNode = .ok (node e)
  complete : ∀ e ∈ s.entry :: s.rest, (node e).body.Complete .builtIn

lemma exists_graph (s : Grown) : ∃ g node, s.document.toGraph = .ok g ∧ s.Makes g node := by
  have hnode : Nonempty Node := ⟨⟨"", default, .continueIf default⟩⟩
  choose! node hnode using s.ready
  have hloads : List.Forall₂ (fun e n => e.toNode = .ok n) s.document.nodes
      ((s.entry :: s.rest).map node) :=
    List.forall₂_map_right_iff.2 (List.forall₂_same.2 fun e he => (hnode e he).1)
  exact ⟨⟨(s.entry :: s.rest).map node, s.tree ++ s.back⟩, node,
    Document.toGraph_of_forall₂ hloads s.ids_nodup, rfl, rfl, fun e he => (hnode e he).1,
    fun e he => (hnode e he).2⟩

namespace Makes

variable {s : Grown} {g : Graph} {node : NodeEntry → Node}

lemma ids (h : s.Makes g node) : g.nodes.map (·.id) = (s.entry :: s.rest).map (·.id) := by
  rw [h.nodes, List.map_map]
  exact List.map_congr_left fun e he => (NodeEntry.toNode_eq_ok (h.loads e he)).2.id_eq

lemma variantOf? (h : s.Makes g node) {e : NodeEntry} (he : e ∈ s.entry :: s.rest) :
    g.variantOf? e.id = some e.variant := by
  have hmem : node e ∈ g.nodes := h.nodes ▸ List.mem_map_of_mem he
  have hfound := Graph.node?_of_mem (h.ids ▸ s.ids_nodup) hmem
  obtain ⟨-, hid, hvariant, -⟩ := NodeEntry.toNode_eq_ok (h.loads e he)
  rw [Graph.variantOf?, ← hid, hfound, Option.map_some, hvariant]

lemma wired (h : s.Makes g node) : g.Wired := by
  intro e he
  obtain ⟨source, hsource, target, htarget, hv, handle, hhandle, rfl⟩ := s.joins e (h.edges ▸ he)
  refine ⟨source.variant, target.variant, h.variantOf? hsource, h.variantOf? htarget, ?_, ?_⟩
  · simpa [Variant.hasOutput] using hhandle
  · cases hvariant : target.variant with
    | timing => exact absurd hvariant hv
    | _ => rfl

lemma timings (h : s.Makes g node) : ∃ call, g.timings = [(idOf 0, call)] := by
  have hvariant : ∀ {e}, e ∈ s.entry :: s.rest → (node e).variant = e.variant :=
    fun he => (NodeEntry.toNode_eq_ok (h.loads _ he)).2.variant_eq
  obtain ⟨call, hcall⟩ : ∃ call, (node s.entry).body = .timing call := by
    have htiming := (hvariant List.mem_cons_self).trans s.entry_variant
    cases hbody : (node s.entry).body <;> simp_all [Node.variant, Body.variant]
  have hid : (node s.entry).id = idOf 0 :=
    (NodeEntry.toNode_eq_ok (h.loads _ List.mem_cons_self)).2.id_eq.trans s.id_entry
  have hnone : ∀ n ∈ s.rest.map node, n.variant ≠ .timing := by
    refine List.forall_mem_map.2 fun e he => ?_
    rw [hvariant (List.mem_cons_of_mem _ he)]
    exact s.rest_variant e he
  refine ⟨call, ?_⟩
  rw [Graph.timings, h.nodes, List.map_cons, List.filterMap_cons_some (by rw [hcall, hid])]
  congr 1
  refine List.filterMap_eq_nil_iff.2 fun n hn => ?_
  cases hbody : n.body with
  | timing other => exact absurd (by rw [Node.variant, hbody]; rfl) (hnone n hn)
  | _ => rfl

/-- No edge leads back to the trigger. -/
lemma target_ne (h : s.Makes g node) : ∀ e ∈ g.edges, e.target ≠ idOf 0 := by
  intro e he hid
  obtain ⟨source, -, target, htarget, hv, handle, -, rfl⟩ := s.joins e (h.edges ▸ he)
  have hsame : target = s.entry := List.inj_on_of_nodup_map s.ids_nodup htarget
    List.mem_cons_self (hid.trans s.id_entry.symm)
  exact hv (hsame ▸ s.entry_variant)

/-- Without back edges the graph is a tree. -/
lemma branching (h : s.Makes g node) (hback : s.back = []) :
    g.Branching (Function.invFun idOf) := by
  have hedges : g.edges = s.tree := by rw [h.edges, hback, List.append_nil]
  constructor
  · intro e he
    obtain ⟨i, j, hlt, hsource, htarget⟩ := s.ascending e (hedges ▸ he)
    have hinverse := Function.leftInverse_invFun Store.idOf_injective
    rw [hsource, htarget, hinverse i, hinverse j]
    exact hlt
  · rw [hedges, s.targets]
    exact (List.nodup_cons.1 s.ids_nodup).2

/-- Only a back edge that is there already is refused. -/
lemma repeated_of_toStore (h : s.Makes g node) (hgraph : s.document.toGraph = .ok g)
    {registry : Registry} {error : Document.ImportError}
    (herror : s.document.toStore registry = .error error) :
    ∃ before e after, error = .refused (.duplicateEdge e) ∧ s.back = before ++ e :: after ∧
      e ∈ before := by
  obtain ⟨refusal, rfl, hrefusal⟩ := (Document.toStore_eq_error_iff hgraph).1 herror
  obtain ⟨before, e, after, rfl, hedges, hmem⟩ := h.wired.repeated_of_firstRefusal hrefusal
  obtain ⟨between, hback, hbetween⟩ := repeated_back (h.edges ▸ hedges) hmem
  exact ⟨between, e, after, rfl, hback, hbetween⟩

lemma toStore_of_back_le_one (h : s.Makes g node) (hgraph : s.document.toGraph = .ok g)
    (hback : s.back.length ≤ 1) (registry : Registry) :
    s.document.toStore registry = .ok (.ofGraph g registry) := by
  cases hstore : s.document.toStore registry with
  | ok store => rw [((Document.toStore_eq_ok_iff hgraph).1 hstore).2]
  | error error =>
    obtain ⟨before, e, after, -, hsplit, hmem⟩ := h.repeated_of_toStore hgraph hstore
    have hlength := congrArg List.length hsplit
    have hpos := List.length_pos_of_mem hmem
    simp only [List.length_append, List.length_cons] at hlength
    omega

lemma compile (h : s.Makes g node) (options : Options) :
    ∃ result, g.compile .builtIn options = .ok result ∧ result.IsFaultless ∧
      (s.back = [] → (∀ id, .recursiveBranch id ∉ result.diagnostics) ∧
        (result.trace.flatMap (·.visited)).Nodup) := by
  obtain ⟨call, ht⟩ := h.timings
  have hcomplete : ∀ n ∈ g.nodes, n.body.Complete .builtIn := by
    rw [h.nodes]
    exact List.forall_mem_map.2 h.complete
  rcases g.compile_cases .builtIn options with ⟨hnone, -⟩ | ⟨result, hok⟩
  · simp [ht] at hnone
  · refine ⟨result, hok, h.wired.isFaultless hcomplete ht hok, fun hback => ?_⟩
    obtain ⟨out, hrun, rfl⟩ := Graph.run_of_compile hok
    obtain ⟨hnodup, hbranch⟩ := (h.branching hback).run_visits_nodup ht h.target_ne hrun
    exact ⟨fun id hmem => hbranch id (Event.mem_diagnostics.1 hmem), hnodup⟩

end Makes

end Grown

namespace Survey

/-- The edges that make the tree: one for each node below the trigger. -/
def treeEdges (d : Document) : List Edge := d.edges.take (d.nodes.length - 1)

def otherEdges (d : Document) : List Edge := d.edges.drop (d.nodes.length - 1)

end Survey

namespace Grown

lemma treeEdges_document (s : Grown) : Survey.treeEdges s.document = s.tree := by
  simp [Survey.treeEdges, document, ← s.length_tree]

lemma otherEdges_document (s : Grown) : Survey.otherEdges s.document = s.back := by
  simp [Survey.otherEdges, document, ← s.length_tree]

end Grown

/-- Whatever the choices, a sample document has the nodes and edges that were asked for, and a
graph can be made of it. It is refused as a store only for a back edge that stands there twice,
so not if there is at most one. Its graph compiles without faults; and without back edges no
branch leads back and no node is visited twice, in one traversal call or in several. -/
theorem document_loads (nodes cycles : ℕ) : Yields (document nodes cycles) fun d =>
    d.nodes.map (·.id) = (List.range (nodes + 1)).map idOf ∧ (d.nodes.map (·.id)).Nodup ∧
    d.edges.length = nodes + min cycles nodes ∧
    (∀ e ∈ Survey.treeEdges d, ∃ i j, i < j ∧ e.source = idOf i ∧ e.target = idOf j) ∧
    (∀ e ∈ Survey.otherEdges d, ∃ i j, j ≤ i ∧ e.source = idOf i ∧ e.target = idOf j) ∧
    ∃ g, d.toGraph = .ok g ∧
      (∀ registry error, d.toStore registry = .error error →
        ∃ before e after, error = .refused (.duplicateEdge e) ∧
          Survey.otherEdges d = before ++ e :: after ∧ e ∈ before) ∧
      (cycles ≤ 1 → ∀ registry, d.toStore registry = .ok (.ofGraph g registry)) ∧
      ∀ options, ∃ result, g.compile .builtIn options = .ok result ∧ result.IsFaultless ∧
        (cycles = 0 → (∀ id, .recursiveBranch id ∉ result.diagnostics) ∧
          (result.trace.flatMap (·.visited)).Nodup) := by
  refine (yields_document nodes cycles).mono ?_
  rintro d ⟨s, rfl, hrest, hback⟩
  obtain ⟨g, node, hgraph, hmakes⟩ := s.exists_graph
  rw [s.treeEdges_document, s.otherEdges_document]
  refine ⟨hrest ▸ s.ids, s.ids_nodup, ?_, s.ascending, s.descending, g, hgraph, ?_, ?_, ?_⟩
  · rw [Grown.document, List.length_append, s.length_tree, hrest, hback]
  · exact fun registry error herror => hmakes.repeated_of_toStore hgraph herror
  · intro hcycles registry
    exact hmakes.toStore_of_back_le_one hgraph (by omega) registry
  · intro options
    obtain ⟨result, hok, hfaultless, hacyclic⟩ := hmakes.compile options
    refine ⟨result, hok, hfaultless, fun hcycles => hacyclic ?_⟩
    rw [hcycles, Nat.zero_min] at hback
    exact List.eq_nil_of_length_eq_zero hback

/-- Always the same choice. -/
def still : Choices := fun _ => 0

/-- Choices of a conditional and two nodes on its branches. -/
def forked : Choices := fun k => [0, 0, 0, 1, 0, 0, 0, 0, 2, 0, 0, 1, 0, 2, 0, 0, 1, 1].getD k 0

/-- The graph that they make. -/
def fork : Graph where
  nodes := [⟨"node_0", default, .timing ⟨"BattleEnd", .empty⟩⟩,
    ⟨"node_1", default, .conditional {}⟩, ⟨"node_2", default, .continueIf {}⟩,
    ⟨"node_3", default, .continueIf {}⟩]
  edges := [⟨"node_0", .output, "node_1", .input⟩, ⟨"node_1", .whenTrue, "node_2", .input⟩,
    ⟨"node_1", .whenFalse, "node_3", .input⟩]

/-- Two back edges by the same choices make one that is refused. Without back edges there is a
store, and each node of the fork is visited by a traversal call of its own. -/
theorem document_loads_fork :
    (∃ before after, ((document 2 2).run still 0).1.toStore .builtIn =
        .error (.refused (.duplicateEdge ⟨"node_1", .output, "node_1", .input⟩)) ∧
      Survey.otherEdges ((document 2 2).run still 0).1 =
        before ++ ⟨"node_1", .output, "node_1", .input⟩ :: after ∧
      ⟨"node_1", .output, "node_1", .input⟩ ∈ before) ∧
    ((document 3 0).run forked 0).1.toGraph = .ok fork ∧
    ((document 3 0).run forked 0).1.toStore .builtIn = .ok (.ofGraph fork .builtIn) ∧
    ∃ result, fork.compile .builtIn {} = .ok result ∧ result.IsFaultless ∧
      result.trace = [⟨"node_1", ["node_1"]⟩, ⟨"node_2", ["node_2"]⟩, ⟨"node_3", ["node_3"]⟩] ∧
      (result.trace.flatMap (·.visited)).Nodup := by
  constructor
  · have herror : ((document 2 2).run still 0).1.toStore .builtIn =
        .error (.refused (.duplicateEdge ⟨"node_1", .output, "node_1", .input⟩)) := by
      decide +kernel
    obtain ⟨-, -, -, -, -, g, -, hrefused, -⟩ := document_loads 2 2 still 0
    obtain ⟨before, e, after, hsame, hsplit, hmem⟩ := hrefused .builtIn _ herror
    obtain rfl := EditError.duplicateEdge.inj (Document.ImportError.refused.inj hsame)
    exact ⟨before, after, herror, hsplit, hmem⟩
  · have hfork : ((document 3 0).run forked 0).1.toGraph = .ok fork := by decide +kernel
    have hview : (fork.compile .builtIn {}).toOption.map (·.trace) =
        some [⟨"node_1", ["node_1"]⟩, ⟨"node_2", ["node_2"]⟩, ⟨"node_3", ["node_3"]⟩] := by cbv
    obtain ⟨-, -, -, -, -, g, hgraph, -, hstore, hcompile⟩ := document_loads 3 0 forked 0
    obtain rfl := Except.ok.inj (hfork.symm.trans hgraph)
    obtain ⟨result, hok, hfaultless, hacyclic⟩ := hcompile {}
    obtain ⟨other, hother, htrace⟩ := exists_ok_of_map hview
    obtain rfl := Except.ok.inj (hok.symm.trans hother)
    exact ⟨hfork, hstore (Nat.zero_le 1) .builtIn, result, hok, hfaultless, htrace,
      (hacyclic rfl).2⟩

end Sample

end ScriptGraph
