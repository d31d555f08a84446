import ScriptGraph.Proofs.Reorderings

/-!
# What is only presentation

Where a node stands, which handle an edge enters, what the call inside an assignment is named
by, and what is given to parameters that a function does not have are of no concern to a
compilation. Graphs that differ in nothing else are compiled alike, event by event: every
function that a compilation is made of gives the same result for both. Here are the
relations between their parts and one statement for each of these functions.
-/
namespace ScriptGraph

open Script (Statement)

/-! ### Parts that are alike -/

variable {r : Registry}

section Lists

variable {α β : Type} {R : α → α → Prop} {xs xs' : List α}

/-- What does not tell related entries apart does not tell lists of them apart. -/
lemma map_eq_of_forall₂ (h : List.Forall₂ R xs xs') {f : α → β}
    (hf : ∀ {a a'}, R a a' → f a' = f a) : xs'.map f = xs.map f := by
  induction h with
  | nil => rfl
  | cons ha _ ih => rw [List.map_cons, List.map_cons, hf ha, ih]

lemma filterMap_eq_of_forall₂ (h : List.Forall₂ R xs xs') {f : α → Option β}
    (hf : ∀ {a a'}, R a a' → f a' = f a) : xs'.filterMap f = xs.filterMap f := by
  simpa using congrArg (List.filterMap id) (map_eq_of_forall₂ h hf)

end Lists

/-- Calls of one function that give the same values to the parameters its schema lists. If the
function is not registered, no parameter is listed. -/
structure Call.Alike (r : Registry) (call call' : Call) : Prop where
  function_eq : call'.function = call.function
  listed : ∀ schema, r.lookup? call.function = some schema → ∀ name ∈ schema.parameters,
    call'.parameters.get? name = call.parameters.get? name

/-- Bodies that do the same by calls that are alike. The ids of embedded calls may differ. -/
inductive Body.Alike (r : Registry) : Body → Body → Prop
  | timing {call call' : Call} : call.Alike r call' → Alike r (.timing call) (.timing call')
  | valueAcquisition {call call' : Call} : call.Alike r call' →
      Alike r (.valueAcquisition call) (.valueAcquisition call')
  | consequence {call call' : Call} : call.Alike r call' →
      Alike r (.consequence call) (.consequence call')
  | conditional {condition : Condition} : Alike r (.conditional condition) (.conditional condition)
  | continueIf {condition : Condition} : Alike r (.continueIf condition) (.continueIf condition)
  | unfilled {slot : Option Slot} : Alike r (.assignment slot none) (.assignment slot none)
  | assignment {slot : Option Slot} {inner inner' : Embedded} : inner.call.Alike r inner'.call →
      Alike r (.assignment slot (some inner)) (.assignment slot (some inner'))

/-- Nodes with one id and bodies that are alike, wherever they stand. -/
structure Node.Alike (r : Registry) (n n' : Node) : Prop where
  id_eq : n'.id = n.id
  body : n.body.Alike r n'.body

/-- An edge without the handle that it enters. -/
def Edge.link (e : Edge) : NodeId × Handle × NodeId := (e.source, e.sourceHandle, e.target)

/-- Graphs whose nodes are alike one by one and whose edges are linked alike. -/
structure Graph.Alike (r : Registry) (g g' : Graph) : Prop where
  nodes : List.Forall₂ (Node.Alike r) g.nodes g'.nodes
  links : g'.edges.map Edge.link = g.edges.map Edge.link

/-- Steps of two sweeps that miss the same id or visit nodes that are alike. -/
inductive Step.Alike (r : Registry) : Step → Step → Prop
  | absent {id referencedBy : NodeId} : Alike r (.absent id referencedBy) (.absent id referencedBy)
  | present {n n' : Node} : n.Alike r n' → Alike r (.present n) (.present n')

/-- All that is written of the values are those of listed parameters. -/
lemma Call.Alike.arguments_eq {call call' : Call} {schema : Schema} (h : call.Alike r call')
    (hschema : r.lookup? call.function = some schema) :
    schema.arguments call'.parameters = schema.arguments call.parameters := by
  refine List.map_congr_left fun name hname => ?_
  rw [h.listed schema hschema name hname]

namespace Body.Alike

variable {b b' : Body}

lemma variant_eq (h : b.Alike r b') : b'.variant = b.variant := by
  cases h <;> rfl

lemma chosenSlot?_eq (h : b.Alike r b') : b'.chosenSlot? = b.chosenSlot? := by
  cases h <;> rfl

end Body.Alike

namespace Node.Alike

variable {n n' : Node}

lemma variant_eq (h : n.Alike r n') : n'.variant = n.variant := h.body.variant_eq

lemma chosenSlot?_eq (h : n.Alike r n') : n'.chosenSlot? = n.chosenSlot? := h.body.chosenSlot?_eq

variable {nodes nodes' : List Node}

lemma find?_id (h : List.Forall₂ (Node.Alike r) nodes nodes') (id : NodeId) :
    (nodes.find? (·.id == id) = none ∧ nodes'.find? (·.id == id) = none) ∨
      ∃ n n', nodes.find? (·.id == id) = some n ∧ nodes'.find? (·.id == id) = some n' ∧
        n.Alike r n' := by
  induction h with
  | nil => exact .inl ⟨rfl, rfl⟩
  | @cons n n' rest rest' hn _ ih =>
    rw [List.find?_cons, List.find?_cons, hn.id_eq]
    cases n.id == id with
    | true => exact .inr ⟨n, n', rfl, rfl, hn⟩
    | false => exact ih

lemma firstNodes (h : List.Forall₂ (Node.Alike r) nodes nodes') :
    List.Forall₂ (Node.Alike r) (Graph.firstNodes nodes) (Graph.firstNodes nodes') := by
  induction h with
  | nil => exact .nil
  | cons hn _ ih =>
    refine .cons hn (List.rel_filter (fun m m' hm => ?_) ih)
    dsimp only
    rw [hm.id_eq, hn.id_eq]

end Node.Alike

/-! ### What is read of a graph -/

namespace Graph.Alike

variable {g g' : Graph}

lemma node? (h : g.Alike r g') (id : NodeId) : (g.node? id = none ∧ g'.node? id = none) ∨
    ∃ n n', g.node? id = some n ∧ g'.node? id = some n' ∧ n.Alike r n' :=
  Node.Alike.find?_id h.nodes id

lemma targets (h : g.Alike r g') (id : NodeId) (handle : Handle) :
    (g'.outgoing id handle).map (·.target) = (g.outgoing id handle).map (·.target) := by
  -- Neither the choice of the edges nor what is taken of them needs more than the links.
  have hread : ∀ edges : List Edge,
      (edges.filter fun e => e.source == id && e.sourceHandle == handle).map (·.target) =
        ((edges.map Edge.link).filter fun l => l.1 == id && l.2.1 == handle).map (·.2.2) := by
    intro edges
    rw [List.filter_map, List.map_map]
    rfl
  rw [outgoing, outgoing, hread, hread, h.links]

lemma sources (h : g.Alike r g') (id : NodeId) :
    (g'.incoming id).map (·.source) = (g.incoming id).map (·.source) := by
  have hread : ∀ edges : List Edge, (edges.filter (·.target == id)).map (·.source) =
      ((edges.map Edge.link).filter (·.2.2 == id)).map (·.1) := by
    intro edges
    rw [List.filter_map, List.map_map]
    rfl
  rw [incoming, incoming, hread, hread, h.links]

lemma followers (h : g.Alike r g') {n n' : Node} (hn : n.Alike r n') :
    g'.followers n' = g.followers n := by
  have hpairs : ∀ edges : List Edge, (edges.map fun e => (e.target, n.id)) =
      (edges.map (·.target)).map (·, n.id) := by
    intro edges
    rw [List.map_map]
    rfl
  unfold Graph.followers
  rw [hn.variant_eq, hn.id_eq, hpairs, hpairs, h.targets]

/-- Sweeps meet the same ids in the same order, since all that they go by is the same. -/
lemma sweepFrom (h : g.Alike r g') (queue : List (NodeId × NodeId)) (met : List NodeId) :
    List.Forall₂ (Step.Alike r) (g.sweepFrom queue met) (g'.sweepFrom queue met) := by
  induction queue, met using queue_induction (g := g) with
  | nil met =>
    rw [Graph.sweepFrom, Graph.sweepFrom]
    exact .nil
  | again id referencedBy rest met hmem ih =>
    rw [sweepFrom_again hmem, sweepFrom_again hmem]
    exact ih
  | absent id referencedBy rest met hmem hn ih =>
    rcases h.node? id with ⟨-, hn'⟩ | ⟨n, n', hsome, -⟩
    · rw [sweepFrom_absent hmem hn, sweepFrom_absent hmem hn']
      exact .cons .absent ih
    · simp [hn] at hsome
  | present id referencedBy rest met n hmem hn ih =>
    rcases h.node? id with ⟨hnone, -⟩ | ⟨m, n', hm, hn', halike⟩
    · simp [hn] at hnone
    · obtain rfl : n = m := Option.some.inj (hn.symm.trans hm)
      rw [sweepFrom_present hmem hn, sweepFrom_present hmem hn', h.followers halike]
      exact .cons (.present halike) (ih _)

lemma conditionalIds (h : g.Alike r g') : g'.conditionalIds = g.conditionalIds := by
  have hkept : List.Forall₂ (Node.Alike r)
      ((firstNodes g.nodes).filter (·.variant == .conditional))
      ((firstNodes g'.nodes).filter (·.variant == .conditional)) := by
    refine List.rel_filter (fun n n' hn => ?_) (Node.Alike.firstNodes h.nodes)
    dsimp only
    rw [hn.variant_eq]
  exact map_eq_of_forall₂ hkept Node.Alike.id_eq

lemma chosenSlots (h : g.Alike r g') : g'.chosenSlots = g.chosenSlots :=
  filterMap_eq_of_forall₂ h.nodes Node.Alike.chosenSlot?_eq

/-- The triggers have the same ids and calls that are alike. -/
lemma timings (h : g.Alike r g') :
    List.Forall₂ (fun t t' => t'.1 = t.1 ∧ t.2.Alike r t'.2) g.timings g'.timings := by
  refine List.rel_filterMap (fun n n' hn => ?_) h.nodes
  obtain ⟨hid, hbody⟩ := hn
  obtain ⟨id, position, body⟩ := n
  obtain ⟨id', position', body'⟩ := n'
  cases hbody with
  | timing hcall => exact .some ⟨hid, hcall⟩
  | _ => exact .none

/-- Neither graph has an entry point, or both have the same and the same triggers besides. -/
lemma timings_cases (h : g.Alike r g') : (g.timings = [] ∧ g'.timings = []) ∨
    ∃ entry call call' others others', g.timings = (entry, call) :: others ∧
      g'.timings = (entry, call') :: others' ∧ call.Alike r call' ∧
      others'.map Prod.fst = others.map Prod.fst := by
  have htimings := h.timings
  generalize g.timings = ts, g'.timings = ts' at htimings
  cases htimings with
  | nil => exact .inl ⟨rfl, rfl⟩
  | @cons t t' others others' ht hothers =>
    obtain ⟨entry, call⟩ := t
    obtain ⟨entry', call'⟩ := t'
    obtain ⟨rfl, hcall⟩ := ht
    exact .inr ⟨_, call, call', others, others', rfl, rfl, hcall, map_eq_of_forall₂ hothers (·.1)⟩

end Graph.Alike

lemma Step.Alike.visitedId?_eq {s s' : Step} (h : s.Alike r s') :
    s'.visitedId? = s.visitedId? := by
  cases h with
  | absent => rfl
  | present hn => exact congrArg some hn.id_eq

/-! ### What is made of a graph -/

namespace Context

variable {c : Context} {g : Graph} (h : c.graph.Alike c.registry g)

include h

lemma serialize_alike (a : Allocation) (id : NodeId) {call call' : Call}
    (hcall : call.Alike c.registry call') :
    (c.withGraph g).serialize a id call' = c.serialize a id call := by
  have hread : ∀ edges : List Edge, (edges.filterMap fun e => a.slotOf? e.source) =
      (edges.map (·.source)).filterMap a.slotOf? := by
    intro edges
    rw [List.filterMap_map]
    rfl
  have hslots : (c.withGraph g).incomingSlots a id = c.incomingSlots a id := by
    unfold incomingSlots
    rw [hread, hread]
    exact congrArg _ (h.sources id)
  unfold serialize
  rw [hslots, hcall.function_eq]
  dsimp only [withGraph]
  cases hschema : c.registry.lookup? call.function with
  | none => rfl
  | some schema =>
    dsimp only
    rw [hcall.arguments_eq hschema]
    rfl

lemma header_alike (a : Allocation) (entry : NodeId) {call call' : Call}
    (hcall : call.Alike c.registry call') :
    (c.withGraph g).header a entry call' = c.header a entry call := by
  unfold header
  rw [serialize_alike h a entry hcall, hcall.function_eq]
  rfl

lemma acquire_alike {n n' : Node} (hn : n.Alike c.registry n') {call call' : Call}
    (hcall : call.Alike c.registry call') (p : Progress) :
    (c.withGraph g).acquire n' call' p = c.acquire n call p := by
  unfold acquire
  rw [hn.id_eq, hn.chosenSlot?_eq, serialize_alike h _ _ hcall]

/-- The branches lead to the same targets, and as many edges are left out. -/
lemma branch_alike (id : NodeId) (follow : Follow) (handle : Handle) (p : Progress) :
    (c.withGraph g).branch id follow handle p = c.branch id follow handle p := by
  have htargets : ((c.withGraph g).graph.outgoing id handle).map (·.target) =
      (c.graph.outgoing id handle).map (·.target) := h.targets id handle
  unfold branch
  cases ho : c.graph.outgoing id handle with
  | nil =>
    rw [ho, List.map_nil, List.map_eq_nil_iff] at htargets
    rw [htargets]
  | cons first ignored =>
    rw [ho, List.map_cons, List.map_eq_cons_iff] at htargets
    obtain ⟨first', ignored', ho', hfirst, hignored⟩ := htargets
    -- The edges themselves may differ, but the report only counts them.
    have hlength : ignored'.length = ignored.length := by
      simpa using congrArg List.length hignored
    have hfan : (c.withGraph g).fanOut id handle ignored' = c.fanOut id handle ignored := by
      unfold fanOut
      simp only [← List.length_pos_iff, hlength]
      rfl
    rw [ho']
    dsimp only
    rw [hfirst, hfan]
    rfl

lemma visit_alike {expandable : List NodeId} (follow : (id : NodeId) → id ∈ expandable → Follow)
    {n n' : Node} (hn : n.Alike c.registry n') (p : Progress) :
    (c.withGraph g).visit expandable follow n' p = c.visit expandable follow n p := by
  have hacquire : ∀ {call call' : Call}, call.Alike c.registry call' →
      (c.withGraph g).acquire n' call' p = c.acquire n call p :=
    fun hcall => acquire_alike h hn hcall p
  obtain ⟨id, position, body⟩ := n
  obtain ⟨id', position', body'⟩ := n'
  obtain rfl : id' = id := hn.id_eq
  cases hn.body with
  | timing hcall => rfl
  | valueAcquisition hcall => exact hacquire hcall
  | consequence hcall =>
    unfold visit
    dsimp only
    rw [serialize_alike h _ _ hcall]
  | @conditional condition =>
    unfold visit expand
    simp only [branch_alike h]
  | continueIf => rfl
  | unfilled => rfl
  | assignment hcall => exact hacquire hcall

lemma perform_alike {expandable : List NodeId} (follow : (id : NodeId) → id ∈ expandable → Follow)
    {steps steps' : List Step} (hsteps : List.Forall₂ (Step.Alike c.registry) steps steps')
    (p : Progress) :
    (c.withGraph g).perform expandable follow steps' p = c.perform expandable follow steps p := by
  induction hsteps generalizing p with
  | nil => rfl
  | cons hs _ ih =>
    cases hs with
    | absent =>
      unfold perform
      rw [ih]
    | present hn =>
      unfold perform
      rw [visit_alike h follow hn, hn.id_eq, hn.variant_eq]
      dsimp only
      rw [ih]

lemma walk_alike (ids : List NodeId) (start referencedBy : NodeId) (p : Progress) :
    (c.withGraph g).walk ids start referencedBy p = c.walk ids start referencedBy p := by
  induction ids using walk_induction generalizing start referencedBy p with
  | step ids ih =>
    have hsweep : List.Forall₂ (Step.Alike c.registry) (c.graph.sweep start referencedBy)
        ((c.withGraph g).graph.sweep start referencedBy) := h.sweepFrom _ _
    have hnested : (c.withGraph g).nested ids = c.nested ids := by
      funext id hid target q
      exact ih id hid target id q
    rw [walk_eq, walk_eq, hnested]
    dsimp only
    rw [perform_alike h _ hsweep, filterMap_eq_of_forall₂ hsweep Step.Alike.visitedId?_eq]

/-- Of the edges of the entry point only the targets count. -/
lemma streams_alike (entry : NodeId) {edges edges' : List Edge}
    (hedges : edges'.map (·.target) = edges.map (·.target)) (p : Progress) :
    (c.withGraph g).streams entry edges' p = c.streams entry edges p := by
  have hids : (c.withGraph g).graph.conditionalIds = c.graph.conditionalIds := h.conditionalIds
  induction edges generalizing edges' p with
  | nil =>
    rw [List.map_nil, List.map_eq_nil_iff] at hedges
    rw [hedges]
    rfl
  | cons e rest ih =>
    rw [List.map_cons, List.map_eq_cons_iff] at hedges
    obtain ⟨e', rest', rfl, he, hrest⟩ := hedges
    unfold streams
    rw [hids, he, walk_alike h]
    dsimp only
    rw [ih hrest]

/-- Not even the events of a run show what is only presentation. -/
theorem run_alike : (c.withGraph g).run = c.run := by
  have hstart : (c.withGraph g).start = c.start :=
    congrArg (fun slots => (⟨⟨slots, []⟩, 0, false⟩ : Progress)) h.chosenSlots
  rcases h.timings_cases with ⟨ht, hg⟩ | ⟨entry, call, call', others, others', ht, hg, hcall, hids⟩
  · have ht' : (c.withGraph g).graph.timings = [] := hg
    simp only [run, ht, ht']
  · have ht' : (c.withGraph g).graph.timings = (entry, call') :: others' := hg
    have htargets : ((c.withGraph g).graph.outgoing entry .output).map (·.target) =
        (c.graph.outgoing entry .output).map (·.target) := h.targets entry .output
    have hreports : (others'.map fun other => Event.reported (.additionalEntryPoint other.1)) =
        others.map fun other => Event.reported (.additionalEntryPoint other.1) := by
      simpa only [List.map_map, Function.comp_def] using
        congrArg (List.map fun id => Event.reported (.additionalEntryPoint id)) hids
    rw [run_eq ht, run_eq ht', hstart, header_alike h _ _ hcall, hreports,
      streams_alike h _ htargets]

end Context

namespace Graph

/-- Presentation never reaches the output. Graphs that differ only in the places of nodes, the
handles that edges enter, the ids of embedded calls and the values of parameters that the schema
of the function does not list are compiled to the same result, or neither has an entry point. -/
theorem compile_alike (g g' : Graph) (registry : Registry) (options : Options)
    (h : g.Alike registry g') : g'.compile registry options = g.compile registry options :=
  congrArg (Except.map Compilation.ofEmission)
    (Context.run_alike (c := ⟨g, registry, options⟩) h)

/-- A throw that is kept in a slot and then thrown again. -/
def thrown : Graph where
  nodes := [⟨"start", default, .timing ⟨"Begin", .empty⟩⟩,
    ⟨"keep", default,
      .assignment (Slot.ofIndex? 4) (some ⟨"inner", ⟨"Roll", .ofList [("sides", .text "6")]⟩⟩)⟩,
    ⟨"again", default, .valueAcquisition ⟨"Roll", .empty⟩⟩]
  edges := [⟨"start", .output, "keep", .input⟩, ⟨"keep", .output, "again", .input⟩]

/-- The same in other places, with another id inside of the assignment, with values for
parameters that are not listed, and with an edge into another handle. -/
def thrownElsewhere : Graph where
  nodes := [⟨"start", ⟨.ofInt 3, .ofInt 4⟩, .timing ⟨"Begin", .ofList [("sides", .text "2")]⟩⟩,
    ⟨"keep", default, .assignment (Slot.ofIndex? 4) (some ⟨"other",
      ⟨"Roll", .ofList [("color", .text "red"), ("sides", .text "6")]⟩⟩)⟩,
    ⟨"again", ⟨.ofInt 5, .ofInt 6⟩, .valueAcquisition ⟨"Roll", .empty⟩⟩]
  edges := [⟨"start", .output, "keep", .output⟩, ⟨"keep", .output, "again", .input⟩]

theorem compile_alike_thrown : thrown.Alike dice thrownElsewhere ∧
    ∃ result, thrown.compile dice {} = .ok result ∧
      thrownElsewhere.compile dice {} = .ok result ∧
      result.bindings = [("keep", ⟨4⟩), ("again", ⟨0⟩)] := by
  have hroll : dice.lookup? "Roll" = some ⟨"Roll", .valueAcquisition, ["sides"]⟩ := by decide
  have hbegin : dice.lookup? "Begin" = none := by decide
  have halike : thrown.Alike dice thrownElsewhere := by
    refine ⟨.cons ⟨rfl, .timing ⟨rfl, ?_⟩⟩ (.cons ⟨rfl, .assignment ⟨rfl, ?_⟩⟩
      (.cons ⟨rfl, .valueAcquisition ⟨rfl, fun _ _ _ _ => rfl⟩⟩ .nil)), rfl⟩
    · simp [hbegin]
    · intro schema hschema name hname
      obtain rfl := Option.some.inj (hroll.symm.trans hschema)
      obtain rfl := List.mem_singleton.1 hname
      decide
  have hview : (thrown.compile dice {}).toOption.map (·.bindings) =
      some [("keep", ⟨4⟩), ("again", ⟨0⟩)] := by cbv
  obtain ⟨result, hok, hbindings⟩ := exists_ok_of_map hview
  exact ⟨halike, result, hok,
    (compile_alike thrown thrownElsewhere dice {} halike).trans hok, hbindings⟩

end Graph

end ScriptGraph
