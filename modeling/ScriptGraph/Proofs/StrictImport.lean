import ScriptGraph.Document.Conversion
import ScriptGraph.Proofs.EditHistories

/-!
# Strict import

Making a store of a document asks for no more than making a graph of it, apart from its
edges: each has to lead from an output to an input of existing nodes, and no edge may
stand there twice. The reasons to refuse an edge are said here once, in the order in which
they are looked for. The edges before the first refused one have been connected by then, so
that what makes a repeated edge offend is an equal edge before it.
-/
namespace ScriptGraph

namespace Graph

/-- Every edge leads from an output to an input of existing nodes and differs from those
before it. -/
structure Sound (g : Graph) : Prop where
  wired : g.Wired
  nodup : g.edges.Nodup

/-- Why a graph does not take an edge. Each reason is given only if those before it do not
apply. -/
inductive Refuses (g : Graph) (e : Edge) : EditError → Prop
  | missingSource : g.variantOf? e.source = none → Refuses g e (.nodeNotFound e.source)
  | missingTarget {source : Variant} : g.variantOf? e.source = some source →
      g.variantOf? e.target = none → Refuses g e (.nodeNotFound e.target)
  | notOutput {source target : Variant} : g.variantOf? e.source = some source →
      g.variantOf? e.target = some target → ¬ source.hasOutput e.sourceHandle →
      Refuses g e (.invalidSource e.source source e.sourceHandle)
  | notInput {source target : Variant} : g.variantOf? e.source = some source →
      g.variantOf? e.target = some target → source.hasOutput e.sourceHandle →
      ¬ target.acceptsInput e.targetHandle →
      Refuses g e (.invalidTarget e.target target e.targetHandle)
  | repeated : g.Connectable e → e ∈ g.edges → Refuses g e (.duplicateEdge e)

/-- The edges are sound up to one that is refused for this reason. -/
def FirstRefusal (g : Graph) (error : EditError) : Prop :=
  ∃ before e after, g.edges = before ++ e :: after ∧ Sound ⟨g.nodes, before⟩ ∧
    Refuses ⟨g.nodes, before⟩ e error

/-- There is a reason to refuse an edge unless it connects and is new. -/
lemma refuses_or_connectable (g : Graph) (e : Edge) :
    (∃ error, g.Refuses e error) ∨ g.Connectable e ∧ e ∉ g.edges := by
  cases hsource : g.variantOf? e.source with
  | none => exact .inl ⟨_, .missingSource hsource⟩
  | some source =>
    cases htarget : g.variantOf? e.target with
    | none => exact .inl ⟨_, .missingTarget hsource htarget⟩
    | some target =>
      by_cases houtput : source.hasOutput e.sourceHandle
      · by_cases hinput : target.acceptsInput e.targetHandle
        · have he : g.Connectable e := ⟨source, target, hsource, htarget, houtput, hinput⟩
          by_cases hmem : e ∈ g.edges
          · exact .inl ⟨_, .repeated he hmem⟩
          · exact .inr ⟨he, hmem⟩
        · exact .inl ⟨_, .notInput hsource htarget houtput hinput⟩
      · exact .inl ⟨_, .notOutput hsource htarget houtput⟩

lemma Sound.append {nodes : List Node} {edges : List Edge} (h : Sound ⟨nodes, edges⟩) {e : Edge}
    (he : Connectable ⟨nodes, edges⟩ e) (hnew : e ∉ edges) : Sound ⟨nodes, edges ++ [e]⟩ where
  wired := List.forall_mem_append.2 ⟨h.wired, List.forall_mem_singleton.2 he⟩
  nodup := h.nodup.append (List.nodup_singleton e) (List.disjoint_singleton.2 hnew)

/-- Of edges that are not sound, one is the first to be refused. -/
lemma sound_or_firstRefusal (g : Graph) : g.Sound ∨ ∃ error, g.FirstRefusal error := by
  obtain ⟨nodes, edges⟩ := g
  induction edges using List.reverseRecOn with
  | nil => exact .inl ⟨List.forall_mem_nil _, List.nodup_nil⟩
  | append_singleton edges e ih =>
    rcases ih with hsound | ⟨error, before, first, after, hedges, hfirst⟩
    · rcases refuses_or_connectable ⟨nodes, edges⟩ e with ⟨error, hrefuses⟩ | ⟨he, hnew⟩
      · exact .inr ⟨error, edges, e, [], rfl, hsound, hrefuses⟩
      · exact .inl (hsound.append he hnew)
    · have hsplit : edges ++ [e] = before ++ first :: (after ++ [e]) := by
        rw [show edges = before ++ first :: after from hedges]
        simp
      exact .inr ⟨error, before, first, after ++ [e], hsplit, hfirst⟩

end Graph

namespace Store

variable {s : Store} {e : Edge}

/-- The store with other edges. -/
def withEdges (s : Store) (edges : List Edge) : Store :=
  ⟨⟨s.graph.nodes, edges⟩, s.registry, s.nextId⟩

/-- Of the two nodes only the variants are looked at. -/
lemma connect_eq (s : Store) (e : Edge) : s.connect e =
    match s.graph.variantOf? e.source, s.graph.variantOf? e.target with
    | none, _ => .error (.nodeNotFound e.source)
    | some _, none => .error (.nodeNotFound e.target)
    | some source, some target =>
      if source.hasOutput e.sourceHandle = false then
        .error (.invalidSource e.source source e.sourceHandle)
      else if target.acceptsInput e.targetHandle = false then
        .error (.invalidTarget e.target target e.targetHandle)
      else if e ∈ s.graph.edges then .error (.duplicateEdge e)
      else .ok (s.withEdges (s.graph.edges ++ [e])) := by
  unfold connect Graph.variantOf?
  cases s.graph.node? e.source with
  | none => rfl
  | some source => cases s.graph.node? e.target <;> rfl

lemma connect_of_connectable (h : s.graph.Connectable e) (hnew : e ∉ s.graph.edges) :
    s.connect e = .ok (s.withEdges (s.graph.edges ++ [e])) := by
  obtain ⟨source, target, hsource, htarget, houtput, hinput⟩ := h
  simp [connect_eq, hsource, htarget, houtput, hinput, hnew]

/-- The reason to refuse an edge is the error of connecting it. -/
lemma connect_of_refuses {error : EditError} (h : s.graph.Refuses e error) :
    s.connect e = .error error := by
  cases h with
  | missingSource hsource => simp [connect_eq, hsource]
  | missingTarget hsource htarget => simp [connect_eq, hsource, htarget]
  | notOutput hsource htarget houtput => simp [connect_eq, hsource, htarget, houtput]
  | notInput hsource htarget houtput hinput =>
    simp [connect_eq, hsource, htarget, houtput, hinput]
  | repeated he hmem =>
    obtain ⟨source, target, hsource, htarget, houtput, hinput⟩ := he
    simp [connect_eq, hsource, htarget, houtput, hinput, hmem]

/-- As long as edges are sound, they are connected one after another. -/
lemma connectAll_append (s : Store) {before : List Edge} (rest : List Edge)
    (h : Graph.Sound ⟨s.graph.nodes, s.graph.edges ++ before⟩) :
    s.connectAll (before ++ rest) =
      (s.withEdges (s.graph.edges ++ before)).connectAll rest := by
  induction before generalizing s with
  | nil => simp [withEdges]
  | cons e before ih =>
    have he : s.graph.Connectable e := h.wired e (by simp)
    have hnew : e ∉ s.graph.edges := fun hmem =>
      List.disjoint_of_nodup_append h.nodup hmem List.mem_cons_self
    have hrest : Graph.Sound ⟨s.graph.nodes, (s.graph.edges ++ [e]) ++ before⟩ := by
      rwa [List.append_assoc, List.singleton_append]
    rw [List.cons_append, connectAll, connect_of_connectable he hnew]
    exact (ih (s.withEdges (s.graph.edges ++ [e])) hrest).trans (by simp [withEdges])

end Store

namespace Document

variable {d : Document} {g : Graph}

/-- Sound edges are all connected. -/
lemma connectGraph_of_sound (h : g.Sound) (registry : Registry) :
    connectGraph g registry = (.ofGraph g registry, none) := by
  have hall := (Store.ofGraph ⟨g.nodes, []⟩ registry).connectAll_append [] h
  rw [List.append_nil] at hall
  exact hall

lemma connectGraph_of_firstRefusal {error : EditError} (h : g.FirstRefusal error)
    (registry : Registry) : (connectGraph g registry).2 = some error := by
  obtain ⟨before, e, after, hedges, hsound, hrefuses⟩ := h
  have hconnect : ((Store.ofGraph ⟨g.nodes, []⟩ registry).withEdges before).connect e =
      .error error := Store.connect_of_refuses hrefuses
  rw [connectGraph, hedges, Store.connectAll_append _ _ hsound]
  change (Store.connectAll ((Store.ofGraph ⟨g.nodes, []⟩ registry).withEdges before) _).2 = _
  rw [Store.connectAll, hconnect]

lemma toStore_of_sound (hgraph : d.toGraph = .ok g) (h : g.Sound) (registry : Registry) :
    d.toStore registry = .ok (.ofGraph g registry) := by
  simp only [toStore, hgraph, connectGraph_of_sound h registry]

lemma toStore_of_firstRefusal (hgraph : d.toGraph = .ok g) {error : EditError}
    (h : g.FirstRefusal error) (registry : Registry) :
    d.toStore registry = .error (.refused error) := by
  have hsecond := connectGraph_of_firstRefusal h registry
  simp only [toStore, hgraph]
  split
  · rename_i hconnect
    simp [hconnect] at hsecond
  · rename_i hconnect
    rw [hconnect] at hsecond
    rw [Option.some.inj hsecond]

lemma toStore_eq_ok_iff (hgraph : d.toGraph = .ok g) {registry : Registry} {s : Store} :
    d.toStore registry = .ok s ↔ g.Sound ∧ s = .ofGraph g registry := by
  constructor
  · intro hs
    rcases g.sound_or_firstRefusal with hsound | ⟨refusal, hrefusal⟩
    · rw [toStore_of_sound hgraph hsound] at hs
      exact ⟨hsound, (Except.ok.inj hs).symm⟩
    · rw [toStore_of_firstRefusal hgraph hrefusal] at hs
      cases hs
  · rintro ⟨hsound, rfl⟩
    exact toStore_of_sound hgraph hsound registry

lemma toStore_eq_error_iff (hgraph : d.toGraph = .ok g) {registry : Registry}
    {error : ImportError} : d.toStore registry = .error error ↔
      ∃ refusal, error = .refused refusal ∧ g.FirstRefusal refusal := by
  constructor
  · intro herror
    rcases g.sound_or_firstRefusal with hsound | ⟨refusal, hrefusal⟩
    · rw [toStore_of_sound hgraph hsound] at herror
      cases herror
    · rw [toStore_of_firstRefusal hgraph hrefusal] at herror
      exact ⟨refusal, (Except.error.inj herror).symm, hrefusal⟩
  · rintro ⟨refusal, rfl, hrefusal⟩
    exact toStore_of_firstRefusal hgraph hrefusal registry

lemma toStore_registry (d : Document) (registry other : Registry) :
    (d.toStore other).map (·.graph) = (d.toStore registry).map (·.graph) := by
  cases hgraph : d.toGraph with
  | error error => simp only [toStore, hgraph, Except.map]
  | ok g =>
    rcases g.sound_or_firstRefusal with hsound | ⟨refusal, hrefusal⟩
    · rw [toStore_of_sound hgraph hsound, toStore_of_sound hgraph hsound]
      rfl
    · rw [toStore_of_firstRefusal hgraph hrefusal, toStore_of_firstRefusal hgraph hrefusal]

/-- Strict import is plain import and a check of the edges. Where no graph can be made of a
document, no store can, for the same reason. Otherwise a store is made exactly if the edges
are sound, and then it holds that very graph; if they are not, the error is the reason to
refuse the first edge that is refused. The registry has no part in this. -/
theorem toStore_strict (d : Document) (registry : Registry) :
    (∀ error, d.toGraph = .error error → d.toStore registry = .error error) ∧
    (∀ g, d.toGraph = .ok g →
      ((∃ s, d.toStore registry = .ok s) ↔ g.Sound) ∧
      (∀ s, d.toStore registry = .ok s → s = .ofGraph g registry) ∧
      ∀ error, d.toStore registry = .error error ↔
        ∃ refusal, error = .refused refusal ∧ g.FirstRefusal refusal) ∧
    ∀ other, (d.toStore other).map (·.graph) = (d.toStore registry).map (·.graph) := by
  refine ⟨fun error herror => ?_, fun g hgraph => ⟨?_, fun s hs => ?_, fun error => ?_⟩, ?_⟩
  · simp only [toStore, herror]
  · simp [toStore_eq_ok_iff hgraph]
  · exact ((toStore_eq_ok_iff hgraph).1 hs).2
  · exact toStore_eq_error_iff hgraph
  · exact d.toStore_registry registry

/-- A document whose last three edges are refused: one leaves a strike by a branch and leads
nowhere, one stands there already, and one comes from nowhere and enters a trigger. -/
def tangle : Document where
  nodes := [{ id := "start", variant := .timing, function := some "Begin" },
    { id := "strike", variant := .consequence, function := some "Strike" }]
  edges := [⟨"start", .output, "strike", .input⟩, ⟨"strike", .whenTrue, "gone", .input⟩,
    ⟨"start", .output, "strike", .input⟩, ⟨"lost", .output, "start", .input⟩]

/-- The first of the three gives the error, and of its two faults the one that is looked for
first. With the other edge alone there is a store; with the nodes twice there is no graph. -/
theorem toStore_strict_tangle :
    (∃ g, tangle.toGraph = .ok g ∧
      tangle.toStore .empty = .error (.refused (.nodeNotFound "gone")) ∧ ¬ g.Sound ∧
      g.FirstRefusal (.nodeNotFound "gone")) ∧
    (∃ g s, Document.toGraph ⟨tangle.nodes, tangle.edges.take 1⟩ = .ok g ∧
      Document.toStore ⟨tangle.nodes, tangle.edges.take 1⟩ .empty = .ok s ∧ g.Sound ∧
      s = .ofGraph g .empty) ∧
    Document.toGraph ⟨tangle.nodes ++ tangle.nodes, []⟩ = .error (.duplicateId "start") ∧
    Document.toStore ⟨tangle.nodes ++ tangle.nodes, []⟩ .empty =
      .error (.duplicateId "start") := by
  have htwice : Document.toGraph ⟨tangle.nodes ++ tangle.nodes, []⟩ =
      .error (.duplicateId "start") := by cbv
  refine ⟨?_, ?_, htwice, (toStore_strict _ .empty).1 _ htwice⟩
  · obtain ⟨g, hgraph⟩ : ∃ g, tangle.toGraph = .ok g := ⟨_, by cbv⟩
    have herror : tangle.toStore .empty = .error (.refused (.nodeNotFound "gone")) := by cbv
    obtain ⟨hok, -, hrefused⟩ := (toStore_strict tangle .empty).2.1 g hgraph
    obtain ⟨refusal, hsame, hfirst⟩ := (hrefused _).1 herror
    obtain rfl := ImportError.refused.inj hsame
    exact ⟨g, hgraph, herror, fun hsound => by simp [herror, hsound] at hok, hfirst⟩
  · obtain ⟨g, hgraph⟩ : ∃ g, Document.toGraph ⟨tangle.nodes, tangle.edges.take 1⟩ = .ok g :=
      ⟨_, by cbv⟩
    obtain ⟨s, hstore⟩ : ∃ s, Document.toStore ⟨tangle.nodes, tangle.edges.take 1⟩ .empty = .ok s :=
      ⟨_, by cbv⟩
    obtain ⟨hok, hsame, -⟩ := (toStore_strict _ .empty).2.1 g hgraph
    exact ⟨g, s, hgraph, hstore, hok.1 ⟨s, hstore⟩, hsame s hstore⟩

end Document

end ScriptGraph
