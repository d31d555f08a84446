import ScriptGraph.Proofs.Ending

/-!
# Renaming ids

Ids are only ever compared. So if all ids of a graph are renamed without making two of them
one, its compilation does the same things in the same order under the new names, and the
script, in which no id stands, stays the same. Every function that a compilation is made of
commutes with renaming, and the statements here say so one by one. The ids of embedded calls
are not even compared: they may be renamed in any way.
-/
namespace ScriptGraph

open Script (Statement)

/-! ### Renaming what a compilation reads and writes -/

/-- The body with its embedded call under another id. -/
def Body.rename (k : NodeId → NodeId) : Body → Body
  | .assignment slot embedded => .assignment slot (embedded.map fun e => ⟨k e.id, e.call⟩)
  | body => body

def Node.rename (f k : NodeId → NodeId) (n : Node) : Node :=
  ⟨f n.id, n.position, n.body.rename k⟩

def Edge.rename (f : NodeId → NodeId) (e : Edge) : Edge :=
  ⟨f e.source, e.sourceHandle, f e.target, e.targetHandle⟩

/-- The graph with its ids renamed by `f`, also those of edges without a node, and the ids of
embedded calls renamed by `k`. -/
def Graph.rename (f k : NodeId → NodeId) (g : Graph) : Graph :=
  ⟨g.nodes.map (Node.rename f k), g.edges.map (Edge.rename f)⟩

def Step.rename (f k : NodeId → NodeId) : Step → Step
  | absent id referencedBy => absent (f id) (f referencedBy)
  | present n => present (n.rename f k)

def Diagnostic.rename (f : NodeId → NodeId) : Diagnostic → Diagnostic
  | nodeNotFound id referencedBy => nodeNotFound (f id) (f referencedBy)
  | unknownFunction id function => unknownFunction (f id) function
  | missingEmbedded id => missingEmbedded (f id)
  | branchFanOut id handle ignored => branchFanOut (f id) handle ignored
  | slotsExhausted id => slotsExhausted (f id)
  | recursiveBranch id => recursiveBranch (f id)
  | substitutionSkipped id slot => substitutionSkipped (f id) slot
  | unexpectedTiming id => unexpectedTiming (f id)
  | additionalEntryPoint id => additionalEntryPoint (f id)
  | limitReached id limit => limitReached (f id) limit

def TraversalRecord.rename (f : NodeId → NodeId) (r : TraversalRecord) : TraversalRecord :=
  ⟨f r.start, r.visited.map f⟩

def Event.rename (f : NodeId → NodeId) : Event → Event
  | reported d => reported (d.rename f)
  | called r => called (r.rename f)
  | streamed target => streamed (f target)
  | visited id variant => visited (f id) variant
  | bound id slot => bound (f id) slot
  | branched id handle target => branched (f id) handle (f target)

def Allocation.rename (f : NodeId → NodeId) (a : Allocation) : Allocation :=
  ⟨a.reserved, a.bindings.map (Prod.map f id)⟩

def Progress.rename (f : NodeId → NodeId) (p : Progress) : Progress :=
  ⟨p.allocation.rename f, p.calls, p.limitReported⟩

/-- A result has no ids in it, but the events and the progress have. -/
def Emission.rename {α : Type} (f : NodeId → NodeId) (x : Emission α) : Emission α :=
  ⟨x.value, x.events.map (Event.rename f), x.progress.rename f⟩

def Compilation.rename (f : NodeId → NodeId) (r : Compilation) : Compilation :=
  ⟨r.script, r.diagnostics.map (Diagnostic.rename f), r.trace.map (TraversalRecord.rename f),
    r.bindings.map (Prod.map f id)⟩

def Context.rename (f k : NodeId → NodeId) (c : Context) : Context :=
  ⟨c.graph.rename f k, c.registry, c.options⟩

variable {f k : NodeId → NodeId}

namespace Node

@[simp] theorem rename_id (n : Node) : (n.rename f k).id = f n.id := rfl

lemma rename_body (n : Node) : (n.rename f k).body = n.body.rename k := rfl

@[simp] theorem rename_variant (n : Node) : (n.rename f k).variant = n.variant := by
  unfold variant rename
  cases n.body <;> rfl

@[simp] theorem rename_chosenSlot? (n : Node) :
    (n.rename f k).chosenSlot? = n.chosenSlot? := by
  unfold chosenSlot? rename
  cases n.body <;> rfl

end Node

namespace Event

lemma diagnostics_rename (events : List Event) :
    diagnostics (events.map (rename f)) = (diagnostics events).map (Diagnostic.rename f) := by
  unfold diagnostics
  rw [List.filterMap_map, List.map_filterMap]
  congr 1
  funext event
  cases event <;> rfl

lemma trace_rename (events : List Event) :
    trace (events.map (rename f)) = (trace events).map (TraversalRecord.rename f) := by
  unfold trace
  rw [List.filterMap_map, List.map_filterMap]
  congr 1
  funext event
  cases event <;> rfl

end Event

@[simp] theorem Progress.rename_limitReported (p : Progress) :
    (p.rename f).limitReported = p.limitReported := rfl

/-- Renaming a compilation is renaming what it is seen from. -/
lemma Compilation.ofEmission_rename (out : Emission Script) :
    ofEmission (out.rename f) = (ofEmission out).rename f := by
  unfold ofEmission Emission.rename
  rw [Event.diagnostics_rename, Event.trace_rename]
  rfl

/-! ### What is read of a graph -/

namespace Graph

variable (hf : Function.Injective f)

include hf

lemma node?_rename (g : Graph) (id : NodeId) :
    (g.rename f k).node? (f id) = (g.node? id).map (Node.rename f k) := by
  unfold node? rename
  rw [List.find?_map]
  congr 2
  funext n
  exact hf.beq_eq

lemma outgoing_rename (g : Graph) (id : NodeId) (handle : Handle) :
    (g.rename f k).outgoing (f id) handle = (g.outgoing id handle).map (Edge.rename f) := by
  unfold outgoing rename
  rw [List.filter_map]
  congr 2
  funext e
  exact congrArg (· && _) hf.beq_eq

lemma incoming_rename (g : Graph) (id : NodeId) :
    (g.rename f k).incoming (f id) = (g.incoming id).map (Edge.rename f) := by
  unfold incoming rename
  rw [List.filter_map]
  congr 2
  funext e
  exact hf.beq_eq

lemma followers_rename (g : Graph) (n : Node) :
    (g.rename f k).followers (n.rename f k) = (g.followers n).map (Prod.map f f) := by
  unfold followers
  rw [Node.rename_variant, Node.rename_id, outgoing_rename hf]
  split_ifs
  · rfl
  · simp [Edge.rename]

lemma sweepFrom_rename (g : Graph) (queue : List (NodeId × NodeId)) (met : List NodeId) :
    (g.rename f k).sweepFrom (queue.map (Prod.map f f)) (met.map f) =
      (g.sweepFrom queue met).map (Step.rename f k) := by
  induction queue, met using queue_induction (g := g) with
  | nil met => simp [sweepFrom]
  | again id referencedBy rest met hmem ih =>
    have hmem' : f id ∈ met.map f := List.mem_map_of_mem hmem
    rw [List.map_cons, Prod.map_apply, sweepFrom_again hmem, sweepFrom_again hmem', ih]
  | absent id referencedBy rest met hmem hn ih =>
    have hmem' : f id ∉ met.map f := by simpa [hf.eq_iff] using hmem
    have hn' : (g.rename f k).node? (f id) = none := by rw [node?_rename hf, hn]; rfl
    rw [List.map_cons, Prod.map_apply, sweepFrom_absent hmem hn, sweepFrom_absent hmem' hn']
    exact congrArg (_ :: ·) ih
  | present id referencedBy rest met n hmem hn ih =>
    have hmem' : f id ∉ met.map f := by simpa [hf.eq_iff] using hmem
    have hn' : (g.rename f k).node? (f id) = some (n.rename f k) := by
      rw [node?_rename hf, hn]
      rfl
    rw [List.map_cons, Prod.map_apply, sweepFrom_present hmem hn, sweepFrom_present hmem' hn',
      followers_rename hf, ← List.map_append]
    exact congrArg (_ :: ·) (ih _)

lemma conditionalIds_rename (g : Graph) :
    (g.rename f k).conditionalIds = g.conditionalIds.map f := by
  have hfirst : ∀ nodes : List Node, firstNodes (nodes.map (Node.rename f k)) =
      (firstNodes nodes).map (Node.rename f k) := by
    intro nodes
    induction nodes with
    | nil => rfl
    | cons n rest ih =>
      simp only [List.map_cons, firstNodes, ih, List.filter_map]
      congr 3
      funext m
      simp [bne, hf.beq_eq]
  unfold conditionalIds
  rw [rename, hfirst, List.filter_map, List.map_map, List.map_map]
  simp only [Function.comp_def, Node.rename_variant, Node.rename_id]

omit hf

lemma timings_rename (g : Graph) :
    (g.rename f k).timings = g.timings.map (Prod.map f id) := by
  unfold timings rename
  rw [List.filterMap_map, List.map_filterMap]
  congr 1
  funext n
  cases hbody : n.body <;> simp [Node.rename, Body.rename, hbody]

end Graph

/-! ### Slots -/

namespace Allocation

lemma slotOf?_rename (hf : Function.Injective f) (a : Allocation) (x : NodeId) :
    (a.rename f).slotOf? (f x) = a.slotOf? x := by
  unfold slotOf? rename
  induction a.bindings with
  | nil => rfl
  | cons b rest ih =>
    obtain ⟨other, slot⟩ := b
    dsimp only at ih
    simp only [List.map_cons, Prod.map_apply, List.lookup_cons, hf.beq_eq, ih, id_eq]

lemma lowestFree?_rename (a : Allocation) : (a.rename f).lowestFree? = a.lowestFree? := by
  unfold lowestFree? isTaken rename
  simp [Function.comp_def]

lemma bind_rename (hf : Function.Injective f) (a : Allocation) (x : NodeId)
    (chosen : Option Slot) :
    (a.rename f).bind (f x) chosen = (a.bind x chosen).map (Prod.map id (rename f)) := by
  unfold bind
  rw [slotOf?_rename hf, lowestFree?_rename]
  cases a.slotOf? x with
  | some slot => rfl
  | none =>
    cases (chosen <|> a.lowestFree?) with
    | none => rfl
    | some slot => simp [rename]

lemma ofGraph_rename (g : Graph) : ofGraph (g.rename f k) = (ofGraph g).rename f := by
  unfold ofGraph Graph.rename rename
  rw [List.filterMap_map]
  simp

end Allocation

/-! ### Runs -/

namespace Context

@[simp] theorem rename_graph (c : Context) :
    (c.rename f k).graph = c.graph.rename f k := rfl

@[simp] theorem rename_registry (c : Context) : (c.rename f k).registry = c.registry := rfl

@[simp] theorem rename_options (c : Context) : (c.rename f k).options = c.options := rfl

variable {c : Context} (hf : Function.Injective f)

include hf

lemma serialize_rename (a : Allocation) (x : NodeId) (call : Call) :
    (c.rename f k).serialize (a.rename f) (f x) call =
      Prod.map id (List.map (Diagnostic.rename f)) (c.serialize a x call) := by
  have hslots : (c.rename f k).incomingSlots (a.rename f) (f x) = c.incomingSlots a x := by
    unfold incomingSlots
    rw [rename_graph, Graph.incoming_rename hf, List.filterMap_map]
    congr 1
    funext e
    exact Allocation.slotOf?_rename hf a e.source
  unfold serialize
  rw [hslots, rename_registry]
  cases c.registry.lookup? call.function with
  | none => rfl
  | some schema =>
    dsimp only
    by_cases hsubstitute : c.options.substitute = true
    · have hsubstitute' : (c.rename f k).options.substitute = true := hsubstitute
      rw [if_pos hsubstitute, if_pos hsubstitute']
      split_ifs
      · simp [Diagnostic.rename]
      · rfl
    · have hsubstitute' : ¬ (c.rename f k).options.substitute = true := hsubstitute
      rw [if_neg hsubstitute, if_neg hsubstitute']
      rfl

lemma header_rename (a : Allocation) (entry : NodeId) (call : Call) :
    (c.rename f k).header (a.rename f) (f entry) call =
      Prod.map id (List.map (Diagnostic.rename f)) (c.header a entry call) := by
  unfold header
  rw [serialize_rename hf, rename_registry]
  cases c.registry.lookup? call.function with
  | none => rfl
  | some schema =>
    dsimp only
    split_ifs
    · rfl
    · rfl

lemma acquire_rename (n : Node) (call : Call) (p : Progress) :
    (c.rename f k).acquire (n.rename f k) call (p.rename f) =
      (c.acquire n call p).rename f := by
  unfold acquire
  simp only [Node.rename_id, Node.rename_chosenSlot?, Progress.rename, serialize_rename hf,
    Allocation.bind_rename hf, Allocation.slotOf?_rename hf]
  obtain ⟨invocation?, problems⟩ := c.serialize p.allocation n.id call
  cases invocation? with
  | none => simp [Emission.rename, Progress.rename, Event.rename]
  | some invocation =>
    cases p.allocation.bind n.id n.chosenSlot? with
    | none => simp [Emission.rename, Progress.rename, Event.rename, Diagnostic.rename]
    | some bound =>
      obtain ⟨slot, a⟩ := bound
      cases p.allocation.slotOf? n.id with
      | none => simp [Emission.rename, Progress.rename, Event.rename]
      | some held => simp [Emission.rename, Progress.rename, Event.rename]

lemma branch_rename {follow follow' : Follow}
    (hfollow : ∀ target p, follow' (f target) (p.rename f) = (follow target p).rename f)
    (x : NodeId) (handle : Handle) (p : Progress) :
    (c.rename f k).branch (f x) follow' handle (p.rename f) =
      (c.branch x follow handle p).rename f := by
  have houtgoing : (c.rename f k).graph.outgoing (f x) handle =
      (c.graph.outgoing x handle).map (Edge.rename f) := c.graph.outgoing_rename hf x handle
  cases ho : c.graph.outgoing x handle with
  | nil =>
    rw [ho] at houtgoing
    rw [branch_unconnected ho, branch_unconnected houtgoing]
    rfl
  | cons first ignored =>
    rw [ho, List.map_cons] at houtgoing
    have hfanOut : (c.rename f k).fanOut (f x) handle (ignored.map (Edge.rename f)) =
        (c.fanOut x handle ignored).map (Event.rename f) := by
      unfold fanOut
      simp only [rename_options, ne_eq, List.map_eq_nil_iff, List.length_map]
      split_ifs <;> rfl
    by_cases hcalls : p.calls < c.options.maxCalls
    · have hwalk : follow' (first.rename f).target (p.rename f) =
          (follow first.target p).rename f := hfollow first.target p
      rw [branch_followed ho hcalls, branch_followed (p := p.rename f) houtgoing hcalls, hfanOut,
        hwalk]
      simp [Emission.rename, Event.rename, Edge.rename]
    · rw [branch_unfollowed ho (not_lt.1 hcalls),
        branch_unfollowed (p := p.rename f) houtgoing (not_lt.1 hcalls), hfanOut,
        Progress.rename_limitReported]
      split_ifs
      · rfl
      · simp [Emission.rename, Progress.rename, Event.rename, Diagnostic.rename]

lemma expand_rename {follow follow' : Follow}
    (hfollow : ∀ target p, follow' (f target) (p.rename f) = (follow target p).rename f)
    (x : NodeId) (condition : Condition) (p : Progress) :
    (c.rename f k).expand (f x) condition follow' (p.rename f) =
      (c.expand x condition follow p).rename f := by
  have hbranch := branch_rename (c := c) (k := k) hf hfollow x
  unfold expand
  rw [hbranch]
  dsimp only [Emission.rename]
  rw [hbranch]
  simp [Emission.rename]

lemma visit_rename {ids : List NodeId} {follow : (x : NodeId) → x ∈ ids → Follow}
    {follow' : (x : NodeId) → x ∈ ids.map f → Follow}
    (hfollow : ∀ x hx hx' target p,
      follow' (f x) hx' (f target) (p.rename f) = (follow x hx target p).rename f)
    (n : Node) (p : Progress) :
    (c.rename f k).visit (ids.map f) follow' (n.rename f k) (p.rename f) =
      (c.visit ids follow n p).rename f := by
  have hmem : (n.rename f k).id ∈ ids.map f ↔ n.id ∈ ids := List.mem_map_of_injective hf
  unfold visit
  rw [Node.rename_body]
  cases n.body with
  | timing call => rfl
  | valueAcquisition call => exact acquire_rename hf n call p
  | consequence call =>
    dsimp only [Body.rename, Node.rename_id, Progress.rename]
    rw [serialize_rename hf]
    simp [Emission.rename, Progress.rename, Event.rename]
  | conditional condition =>
    dsimp only [Body.rename]
    by_cases hid : n.id ∈ ids
    · rw [dif_pos hid, dif_pos (hmem.2 hid)]
      exact expand_rename hf (hfollow n.id hid (hmem.2 hid)) n.id condition p
    · rw [dif_neg hid, dif_neg (mt hmem.1 hid)]
      rfl
  | continueIf condition => rfl
  | assignment slot embedded =>
    cases embedded with
    | none => rfl
    | some e => exact acquire_rename hf n e.call p

lemma perform_rename {ids : List NodeId} {follow : (x : NodeId) → x ∈ ids → Follow}
    {follow' : (x : NodeId) → x ∈ ids.map f → Follow}
    (hfollow : ∀ x hx hx' target p,
      follow' (f x) hx' (f target) (p.rename f) = (follow x hx target p).rename f)
    (steps : List Step) (p : Progress) :
    (c.rename f k).perform (ids.map f) follow' (steps.map (Step.rename f k)) (p.rename f) =
      (c.perform ids follow steps p).rename f := by
  induction steps generalizing p with
  | nil => rfl
  | cons s rest ih =>
    cases s with
    | absent x referencedBy =>
      simp only [List.map_cons, Step.rename, perform, ih]
      rfl
    | present n =>
      simp only [List.map_cons, Step.rename, perform, visit_rename hf hfollow]
      dsimp only [Emission.rename]
      rw [ih]
      simp [Emission.rename, Event.rename]

lemma walk_rename (ids : List NodeId) (start referencedBy : NodeId) (p : Progress) :
    (c.rename f k).walk (ids.map f) (f start) (f referencedBy) (p.rename f) =
      (c.walk ids start referencedBy p).rename f := by
  induction ids using walk_induction generalizing start referencedBy p with
  | step ids ih =>
    have hsweep : (c.rename f k).graph.sweep (f start) (f referencedBy) =
        (c.graph.sweep start referencedBy).map (Step.rename f k) :=
      c.graph.sweepFrom_rename hf [(start, referencedBy)] []
    have hnested : ∀ x hx hx' target q,
        (c.rename f k).nested (ids.map f) (f x) hx' (f target) (q.rename f) =
          (c.nested ids x hx target q).rename f := by
      intro x hx hx' target q
      have hwithout : without (ids.map f) (f x) = (without ids x).map f := by
        unfold without
        rw [List.filter_map]
        congr 2
        funext y
        simp [bne, hf.beq_eq]
      unfold nested
      rw [hwithout]
      exact ih x hx target x q
    have hvisited : ((c.graph.sweep start referencedBy).map (Step.rename f k)).filterMap
        Step.visitedId? = ((c.graph.sweep start referencedBy).filterMap Step.visitedId?).map f := by
      rw [List.filterMap_map, List.map_filterMap]
      congr 1
      funext s
      cases s <;> rfl
    have hperform := perform_rename (c := c) (k := k) hf hnested
      (c.graph.sweep start referencedBy) ⟨p.allocation, p.calls + 1, p.limitReported⟩
    rw [walk_eq, walk_eq]
    dsimp only [Progress.rename] at hperform ⊢
    rw [hsweep, hvisited, hperform]
    rfl

lemma streams_rename (entry : NodeId) (edges : List Edge) (p : Progress) :
    (c.rename f k).streams (f entry) (edges.map (Edge.rename f)) (p.rename f) =
      (c.streams entry edges p).rename f := by
  induction edges generalizing p with
  | nil => rfl
  | cons e rest ih =>
    have hwalk : (c.rename f k).walk (c.rename f k).graph.conditionalIds (e.rename f).target
        (f entry) (p.rename f) = (c.walk c.graph.conditionalIds e.target entry p).rename f := by
      rw [rename_graph, Graph.conditionalIds_rename hf]
      exact walk_rename hf _ _ _ _
    simp only [List.map_cons, streams, hwalk]
    dsimp only [Emission.rename]
    rw [ih]
    simp [Emission.rename, Event.rename, Edge.rename]

/-- The run of a renamed graph is the run of the graph, renamed. -/
theorem run_rename : (c.rename f k).run = c.run.map (Emission.rename f) := by
  have htimings : (c.rename f k).graph.timings = c.graph.timings.map (Prod.map f id) :=
    c.graph.timings_rename
  cases ht : c.graph.timings with
  | nil =>
    rw [ht] at htimings
    unfold run
    rw [ht, htimings]
    rfl
  | cons first others =>
    obtain ⟨entry, call⟩ := first
    rw [ht] at htimings
    have hstart : (c.rename f k).start = c.start.rename f :=
      congrArg (Progress.mk · 0 false) (Allocation.ofGraph_rename c.graph)
    have hstreams : (c.rename f k).streams (f entry)
        ((c.rename f k).graph.outgoing (f entry) .output) (c.start.rename f) =
        (c.streams entry (c.graph.outgoing entry .output) c.start).rename f := by
      rw [rename_graph, Graph.outgoing_rename hf]
      exact streams_rename hf entry _ c.start
    have hheader : (c.rename f k).header (c.start.rename f).allocation (f entry) call =
        Prod.map id (List.map (Diagnostic.rename f)) (c.header c.start.allocation entry call) :=
      header_rename hf c.start.allocation entry call
    rw [run_eq ht, run_eq htimings, hstart, id_eq, hheader, hstreams]
    simp only [Except.map, Emission.rename, List.map_append, List.map_map, Prod.map_fst,
      Prod.map_snd, id_eq]
    rfl

end Context

namespace Graph

/-- Compilation is equivariant. Renaming the ids of a graph, so that different ids stay
different, renames them in the trace, the bindings and the diagnostics, in the same order,
and leaves the script as it is; and a graph without an entry point still has none. -/
theorem compile_renamed (g : Graph) (registry : Registry) (options : Options)
    (f k : NodeId → NodeId) (hf : Function.Injective f) :
    (g.rename f k).compile registry options =
      (g.compile registry options).map (Compilation.rename f) := by
  have hrun : Context.run ⟨g.rename f k, registry, options⟩ =
      (Context.run ⟨g, registry, options⟩).map (Emission.rename f) :=
    Context.run_rename (c := ⟨g, registry, options⟩) (k := k) hf
  unfold compile
  rw [hrun]
  cases Context.run ⟨g, registry, options⟩ with
  | error e => rfl
  | ok out => exact congrArg Except.ok (Compilation.ofEmission_rename out)

/-- Two ids of the knot change places, so that their order as texts is reversed. -/
theorem compile_renamed_knot :
    Function.Injective (Equiv.swap "check" "strike" : NodeId → NodeId) ∧
    ∃ result renamed, knot.compile .empty {} = .ok result ∧
      (knot.rename (Equiv.swap "check" "strike") id).compile .empty {} = .ok renamed ∧
      renamed.script = result.script ∧
      result.trace = [⟨"stop", ["stop", "check", "strike", "start"]⟩,
        ⟨"stop", ["stop", "check", "strike", "start"]⟩, ⟨"gone", []⟩] ∧
      renamed.trace = [⟨"stop", ["stop", "strike", "check", "start"]⟩,
        ⟨"stop", ["stop", "strike", "check", "start"]⟩, ⟨"gone", []⟩] ∧
      .recursiveBranch "check" ∈ result.diagnostics ∧
      .recursiveBranch "strike" ∈ renamed.diagnostics := by
  have hf : Function.Injective (Equiv.swap "check" "strike" : NodeId → NodeId) :=
    (Equiv.swap "check" "strike").injective
  have hview : (knot.compile .empty {}).toOption.map
      (fun result => (result.trace, decide (.recursiveBranch "check" ∈ result.diagnostics))) =
      some ([⟨"stop", ["stop", "check", "strike", "start"]⟩,
        ⟨"stop", ["stop", "check", "strike", "start"]⟩, ⟨"gone", []⟩], true) := by cbv
  obtain ⟨result, hok, hresult⟩ := exists_ok_of_map hview
  obtain ⟨htrace, hrecursive⟩ := Prod.mk.inj hresult
  have hmem := of_decide_eq_true hrecursive
  have hrenamed := compile_renamed knot .empty {} (Equiv.swap "check" "strike") id hf
  rw [hok] at hrenamed
  refine ⟨hf, result, _, hok, hrenamed, rfl, htrace, ?_, hmem, List.mem_map.2 ⟨_, hmem, ?_⟩⟩
  · simp only [Compilation.rename, htrace]
    decide
  · decide

end Graph

end ScriptGraph
