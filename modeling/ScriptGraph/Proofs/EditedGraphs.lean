import ScriptGraph.Document.Conversion
import ScriptGraph.Proofs.Coverage
import ScriptGraph.Proofs.EditHistories

/-!
# Compiling edited graphs

Whatever a compilation follows is the target of an edge. In a wired graph that is a node and
no trigger, and in a well-formed store every call names a registered function. So the
reports that tell of a broken graph are never made of an edited one. A document brings its
own functions, which no registry need have; its edges are checked like any others.
-/
namespace ScriptGraph

/-- No diagnostic tells of an id without a node, or of a trigger behind the entry point. -/
def Compilation.IsConnected (result : Compilation) : Prop :=
  (∀ id referencedBy, .nodeNotFound id referencedBy ∉ result.diagnostics) ∧
    ∀ id, .unexpectedTiming id ∉ result.diagnostics

lemma Body.Sanctioned.registered {r : Registry} {id : NodeId} {body : Body} {call : Call}
    (h : body.Sanctioned r id) (hcall : body.call? = some call) :
    ∃ schema, r.lookup? call.function = some schema := by
  cases body with
  | timing | valueAcquisition | consequence =>
    obtain ⟨schema, hschema, -⟩ := h
    exact ⟨schema, Option.some.inj hcall ▸ hschema⟩
  | conditional | continueIf => cases hcall
  | assignment slot embedded =>
    obtain ⟨inner, hinner, rfl⟩ := Option.map_eq_some_iff.1 hcall
    obtain ⟨⟨schema, hschema, -⟩, -⟩ := h inner hinner
    exact ⟨schema, hschema⟩

lemma Context.lookup?_of_mem_header {c : Context} {a : Allocation} {entry id : NodeId}
    {call : Call} {function : String}
    (h : .unknownFunction id function ∈ (c.header a entry call).2) :
    c.registry.lookup? call.function = none := by
  rcases c.header_cases a entry call with ⟨hlookup, -⟩ | ⟨-, slots, hproblems⟩
  · exact hlookup
  · simp [hproblems] at h

/-- A report of an unknown function is true of a node in the graph. -/
lemma Context.Happens.unknownFunction {c : Context} {expandable : List NodeId}
    {start id : NodeId} {function : String}
    (h : c.Happens expandable start (.reported (.unknownFunction id function))) :
    ∃ n ∈ c.graph.nodes, ∃ call, n.body.call? = some call ∧
      c.registry.lookup? call.function = none := by
  generalize hevent : Event.reported (.unknownFunction id function) = event at h
  induction h with
  | called => cases hevent
  | @caused _ start referencedBy s _ hs hcause =>
    subst hevent
    cases hcause with
    | remarked hremark => cases hremark
    | @omitted n _ homit =>
      -- Of the reasons to leave a node out only the last one is an unknown function.
      rcases omission?_cases homit with ⟨hd, -⟩ | ⟨hd, -⟩ | ⟨hd, -⟩ | ⟨call, -, -, hcall, hlookup⟩
      · cases hd
      · cases hd
      · cases hd
      · obtain ⟨hn, -⟩ := Graph.present_mem_sweep.1 hs
        exact ⟨n, List.mem_of_find?_eq_some hn, call, hcall, hlookup⟩
  | nested _ _ _ _ _ _ ih => exact ih hevent

namespace Graph

lemma Wired.passable_of_live {g : Graph} {entry id : NodeId} (h : g.Wired)
    (hlive : g.Live entry id) : g.Passable id := by
  obtain ⟨e, he, rfl⟩ := hlive.exists_edge
  exact h.passable he

lemma Wired.isConnected {g : Graph} {registry : Registry} {options : Options}
    {result : Compilation} (hwired : g.Wired) (h : g.compile registry options = .ok result) :
    result.IsConnected := by
  obtain ⟨entry, call, others, ht⟩ := timings_of_compile h
  obtain ⟨out, hrun, rfl⟩ := run_of_compile h
  have hreach := reaches_of_run (c := ⟨g, registry, options⟩) ht hrun
  constructor
  · intro id referencedBy hmem
    obtain ⟨hlive, hnone⟩ := hreach _ (Event.mem_diagnostics.1 hmem)
    obtain ⟨n, hn, -⟩ := hwired.passable_of_live hlive
    simp [hn] at hnone
  · intro id hmem
    obtain ⟨hlive, n, hn, htiming⟩ := hreach _ (Event.mem_diagnostics.1 hmem)
    obtain ⟨m, hm, hvariant⟩ := hwired.passable_of_live hlive
    exact hvariant (Option.some.inj (hm.symm.trans hn) ▸ htiming)

lemma unknownFunction_of_compile {g : Graph} {registry : Registry} {options : Options}
    {result : Compilation} {id : NodeId} {function : String}
    (h : g.compile registry options = .ok result)
    (hmem : .unknownFunction id function ∈ result.diagnostics) :
    ∃ n ∈ g.nodes, ∃ call, n.body.call? = some call ∧ registry.lookup? call.function = none := by
  obtain ⟨entry, call, others, ht⟩ := timings_of_compile h
  set c : Context := ⟨g, registry, options⟩
  rw [compile, Context.run_eq (c := c) ht] at h
  obtain rfl := Except.ok.inj h
  rcases List.mem_append.1 (Event.mem_diagnostics.1 hmem) with hmem | hmem
  · have hheader : .unknownFunction id function ∈
        (c.header c.start.allocation entry call).2 := by simpa using hmem
    obtain ⟨n, hn, -, hbody⟩ := exists_node_of_mem_timings (ht ▸ List.mem_cons_self)
    exact ⟨n, hn, call, by rw [hbody]; rfl, Context.lookup?_of_mem_header hheader⟩
  · obtain ⟨e, -, hevent | hh⟩ := Context.happens_of_mem_streams hmem
    · cases hevent
    · exact hh.unknownFunction

/-- Compilation fails only for want of a trigger. -/
lemma compile_cases (g : Graph) (registry : Registry) (options : Options) :
    g.timings = [] ∧ g.compile registry options = .error .noEntryPoint ∨
      ∃ result, g.compile registry options = .ok result := by
  cases ht : g.timings with
  | nil => exact .inl ⟨rfl, by simp [compile, Context.run, ht, Except.map]⟩
  | cons first others =>
    have hrun := Context.run_eq (c := ⟨g, registry, options⟩) ht
    exact .inr ⟨_, by rw [compile, hrun]; rfl⟩

end Graph

namespace Store

lemma WellFormed.unknownFunction_notMem {s : Store} (hs : s.WellFormed) {options : Options}
    {result : Compilation} (h : s.graph.compile s.registry options = .ok result) (id : NodeId)
    (function : String) : .unknownFunction id function ∉ result.diagnostics := by
  intro hmem
  obtain ⟨n, hn, call, hcall, hnone⟩ := Graph.unknownFunction_of_compile h hmem
  obtain ⟨schema, hschema⟩ := (hs.sanctioned n hn).registered hcall
  simp [hschema] at hnone

lemma wired_of_connectAll {s s' : Store} {edges : List Edge}
    (h : s.connectAll edges = (s', none)) (hs : s.graph.Wired) : s'.graph.Wired := by
  induction edges generalizing s with
  | nil => exact (Prod.mk.inj h).1 ▸ hs
  | cons e rest ih =>
    cases hconnect : s.connect e with
    | error error => simp [connectAll, hconnect] at h
    | ok next =>
      simp only [connectAll, hconnect] at h
      obtain ⟨he, hmem, rfl⟩ := connect_outcome hconnect
      exact ih h ((EditOutcome.connected he hmem).wired hs)

lemma wired_of_applyAll {s s' : Store} {edits : List Edit} (h : s.applyAll edits = .ok s')
    (hs : s.graph.Wired) : s'.graph.Wired :=
  applyAll_induction (P := fun t => t.graph.Wired) (fun _ _ hout ht => hout.wired ht) h hs

end Store

namespace Document

/-- A document becomes a store only if all of its edges connect. -/
lemma wired_of_toStore {d : Document} {registry : Registry} {s : Store}
    (h : d.toStore registry = .ok s) : s.graph.Wired := by
  unfold toStore at h
  cases hgraph : d.toGraph with
  | error error => simp [hgraph] at h
  | ok g =>
    rcases hconnect : connectGraph g registry with ⟨store, _ | error⟩
    · simp only [hgraph, hconnect] at h
      obtain rfl := Except.ok.inj h
      exact Store.wired_of_connectAll hconnect (by simp [Store.ofGraph, Graph.Wired])
    · simp [hgraph, hconnect] at h

end Document

namespace Store

/-- A graph that was edited from an empty store compiles without a report of a missing node,
an unknown function or a misplaced trigger, unless it has no trigger at all. A graph that
was edited from a document may still call unknown functions. -/
theorem compile_edited (registry : Registry) (options : Options) :
    (∀ (edits : List Edit) (s : Store), (new registry).applyAll edits = .ok s →
      (s.graph.timings = [] ∧ s.graph.compile registry options = .error .noEntryPoint) ∨
      ∃ result, s.graph.compile registry options = .ok result ∧ result.IsConnected ∧
        ∀ id function, .unknownFunction id function ∉ result.diagnostics) ∧
    ∀ (d : Document) (origin : Registry) (imported : Store) (edits : List Edit) (s : Store),
      d.toStore origin = .ok imported → imported.applyAll edits = .ok s →
      (s.graph.timings = [] ∧ s.graph.compile registry options = .error .noEntryPoint) ∨
      ∃ result, s.graph.compile registry options = .ok result ∧ result.IsConnected := by
  constructor
  · intro edits s h
    obtain ⟨rfl, hs⟩ := wellFormed_of_applyAll h
    refine (s.graph.compile_cases s.registry options).imp_right fun ⟨result, hok⟩ => ?_
    exact ⟨result, hok, hs.wired.isConnected hok, hs.unknownFunction_notMem hok⟩
  · intro d origin imported edits s himport h
    have hwired := wired_of_applyAll h (Document.wired_of_toStore himport)
    refine (s.graph.compile_cases registry options).imp_right fun ⟨result, hok⟩ => ?_
    exact ⟨result, hok, hwired.isConnected hok⟩

/-- A document whose functions are not built in. -/
def duel : Document where
  nodes := [{ id := "start", variant := .timing, function := some "Begin" },
    { id := "strike", variant := .consequence, function := some "Strike" }]
  edges := [⟨"start", .output, "strike", .input⟩]

/-- Edits that lead back into the nodes of the document. -/
def rematch : List Edit :=
  [.add .conditional .empty default, .connect ⟨"strike", .output, "node_0", .input⟩,
    .connect ⟨"node_0", .whenTrue, "strike", .input⟩]

theorem compile_edited_session :
    (∃ s result, (new .builtIn).applyAll session = .ok s ∧
      s.graph.compile .builtIn {} = .ok result ∧ result.trace = [⟨"node_2", ["node_2", "node_3"]⟩] ∧
      result.IsConnected ∧ ∀ id function, .unknownFunction id function ∉ result.diagnostics) ∧
    ∃ imported s result, duel.toStore .builtIn = .ok imported ∧
      imported.applyAll rematch = .ok s ∧ s.graph.compile .builtIn {} = .ok result ∧
      .unknownFunction "start" "Begin" ∈ result.diagnostics ∧ result.IsConnected := by
  constructor
  · have hview : ((new .builtIn).applyAll session).toOption.map (fun s =>
        (s.graph.compile .builtIn {}).toOption.map (·.trace)) =
        some (some [⟨"node_2", ["node_2", "node_3"]⟩]) := by cbv
    obtain ⟨s, hs, hcompiled⟩ := exists_ok_of_map hview
    obtain ⟨result, hok, htrace⟩ := exists_ok_of_map hcompiled
    rcases (compile_edited .builtIn {}).1 session s hs with ⟨-, herror⟩ | ⟨result', hok', hparts⟩
    · simp [hok] at herror
    · obtain rfl := Except.ok.inj (hok.symm.trans hok')
      exact ⟨s, result, hs, hok, htrace, hparts⟩
  · have hview : (duel.toStore .builtIn).toOption.map (fun imported =>
        (imported.applyAll rematch).toOption.map fun s =>
          (s.graph.compile .builtIn {}).toOption.map fun result =>
            decide (.unknownFunction "start" "Begin" ∈ result.diagnostics)) =
        some (some (some true)) := by cbv
    obtain ⟨imported, himport, hedited⟩ := exists_ok_of_map hview
    obtain ⟨s, hs, hcompiled⟩ := exists_ok_of_map hedited
    obtain ⟨result, hok, hunknown⟩ := exists_ok_of_map hcompiled
    rcases (compile_edited .builtIn {}).2 duel .builtIn imported rematch s himport hs with
      ⟨-, herror⟩ | ⟨result', hok', hconnected⟩
    · simp [hok] at herror
    · obtain rfl := Except.ok.inj (hok.symm.trans hok')
      exact ⟨imported, s, result, himport, hs, hok, of_decide_eq_true hunknown, hconnected⟩

end Store

end ScriptGraph
