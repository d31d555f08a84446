import ScriptGraph.Proofs.Ending
import ScriptGraph.Proofs.SlotAllocation

/-!
# Which orders of a graph matter

A compilation looks at its graph in five ways only: which node an id stands for, which edges
leave a handle, which edges enter an id, which triggers there are, and which slots are chosen
anywhere. Of the chosen slots not even the order counts. Two graphs that look the same in
these ways are compiled alike, and a reordering that keeps the triggers, the edges of every
handle and the edges into every id in order changes nothing of what is seen.
-/
namespace ScriptGraph

open Script (Statement)

namespace Graph

/-- The second graph looks like the first wherever a compilation looks. -/
structure LooksLike (g g' : Graph) : Prop where
  node? : ∀ id, g'.node? id = g.node? id
  outgoing : ∀ id handle, g'.outgoing id handle = g.outgoing id handle
  incoming : ∀ id, g'.incoming id = g.incoming id
  timings : g'.timings = g.timings
  chosenSlots : ∀ slot, slot ∈ g'.chosenSlots ↔ slot ∈ g.chosenSlots

namespace LooksLike

variable {g g' : Graph}

lemma isConditional (h : g.LooksLike g') (id : NodeId) :
    g'.IsConditional id ↔ g.IsConditional id := by
  unfold IsConditional
  rw [h.node?]

lemma sweepFrom (h : g.LooksLike g') (queue : List (NodeId × NodeId)) (met : List NodeId) :
    g'.sweepFrom queue met = g.sweepFrom queue met := by
  induction queue, met using queue_induction (g := g) with
  | nil met => rw [Graph.sweepFrom, Graph.sweepFrom]
  | again id referencedBy rest met hmem ih => rw [sweepFrom_again hmem, sweepFrom_again hmem, ih]
  | absent id referencedBy rest met hmem hn ih =>
    rw [sweepFrom_absent hmem hn, sweepFrom_absent hmem (by rwa [h.node?]), ih]
  | present id referencedBy rest met n hmem hn ih =>
    have hfollowers : g'.followers n = g.followers n := by
      unfold followers
      rw [h.outgoing]
    rw [sweepFrom_present hmem hn, sweepFrom_present hmem (by rwa [h.node?]), hfollowers]
    rw [ih (rest ++ g.followers n)]

end LooksLike

end Graph

namespace Allocation

/-- The same bindings, and the same slots reserved in whatever order. -/
structure Matches (a a' : Allocation) : Prop where
  bindings : a'.bindings = a.bindings
  reserved : ∀ slot, slot ∈ a'.reserved ↔ slot ∈ a.reserved

namespace Matches

variable {a a' : Allocation}

lemma slotOf? (h : a.Matches a') (id : NodeId) : a'.slotOf? id = a.slotOf? id := by
  unfold Allocation.slotOf?
  rw [h.bindings]

lemma lowestFree? (h : a.Matches a') : a'.lowestFree? = a.lowestFree? := by
  have htaken : ∀ slot, a'.isTaken slot = a.isTaken slot := by
    intro slot
    have hreserved : a'.reserved.contains slot = a.reserved.contains slot := by
      rw [Bool.eq_iff_iff, List.contains_iff_mem, List.contains_iff_mem, h.reserved]
    unfold isTaken
    rw [hreserved, h.bindings]
  unfold Allocation.lowestFree?
  simp only [htaken]

/-- A binding fails in both, or gives the same slot in both. -/
lemma bind (h : a.Matches a') (id : NodeId) (chosen : Option Slot) :
    (a.bind id chosen = none ∧ a'.bind id chosen = none) ∨
      ∃ slot b b', a.bind id chosen = some (slot, b) ∧ a'.bind id chosen = some (slot, b') ∧
        b.Matches b' := by
  unfold Allocation.bind
  rw [h.slotOf?, h.lowestFree?]
  cases hheld : a.slotOf? id with
  | some slot => exact .inr ⟨slot, a, a', rfl, rfl, h⟩
  | none =>
    cases hgiven : (chosen <|> a.lowestFree?) with
    | none => exact .inl ⟨rfl, rfl⟩
    | some slot =>
      refine .inr ⟨slot, _, _, rfl, rfl, ?_, h.reserved⟩
      dsimp only
      rw [h.bindings]

end Matches

end Allocation

/-- Two states that differ at most in the order of the reserved slots. -/
structure Progress.Matches (p p' : Progress) : Prop where
  allocation : p.allocation.Matches p'.allocation
  calls : p'.calls = p.calls
  limitReported : p'.limitReported = p.limitReported

/-- The same result by the same events, with matching states afterwards. -/
structure Emission.Matches {α : Type} (x x' : Emission α) : Prop where
  value : x'.value = x.value
  events : x'.events = x.events
  progress : x.progress.Matches x'.progress

/-- One stretch after another, whatever is made of their values. -/
lemma Emission.Matches.both {α β γ : Type} {x x' : Emission α} {y y' : Emission β}
    (hx : x.Matches x') (hy : y.Matches y') (f : α → β → γ) :
    Emission.Matches ⟨f x.value y.value, x.events ++ y.events, y.progress⟩
      ⟨f x'.value y'.value, x'.events ++ y'.events, y'.progress⟩ where
  value := by
    dsimp only
    rw [hx.value, hy.value]
  events := by
    dsimp only
    rw [hx.events, hy.events]
  progress := hy.progress

namespace Context

/-- The same compilation of another graph. -/
def withGraph (c : Context) (g : Graph) : Context := ⟨g, c.registry, c.options⟩

section Matching

variable {c : Context} {g : Graph} {p p' : Progress}

lemma serialize_withGraph (h : c.graph.LooksLike g) {a a' : Allocation} (ha : a.Matches a')
    (id : NodeId) (call : Call) : (c.withGraph g).serialize a' id call = c.serialize a id call := by
  have hslots : (c.withGraph g).incomingSlots a' id = c.incomingSlots a id := by
    unfold incomingSlots
    change (g.incoming id).filterMap _ = _
    rw [h.incoming]
    simp only [ha.slotOf?]
  unfold serialize
  rw [hslots]
  rfl

lemma header_withGraph (h : c.graph.LooksLike g) {a a' : Allocation} (ha : a.Matches a')
    (entry : NodeId) (call : Call) :
    (c.withGraph g).header a' entry call = c.header a entry call := by
  unfold header
  rw [serialize_withGraph h ha]
  rfl

lemma acquire_withGraph (h : c.graph.LooksLike g) (hp : p.Matches p') (n : Node) (call : Call) :
    (c.acquire n call p).Matches ((c.withGraph g).acquire n call p') := by
  unfold acquire
  rw [serialize_withGraph h hp.allocation, hp.allocation.slotOf?]
  obtain ⟨invocation?, problems⟩ := c.serialize p.allocation n.id call
  cases invocation? with
  | none => exact ⟨rfl, rfl, hp⟩
  | some invocation =>
    rcases hp.allocation.bind n.id n.chosenSlot? with
      ⟨hnone, hnone'⟩ | ⟨slot, b, b', hsome, hsome', hb⟩
    · rw [hnone, hnone']
      exact ⟨rfl, rfl, hp⟩
    · rw [hsome, hsome']
      exact ⟨rfl, rfl, hb, hp.calls, hp.limitReported⟩

lemma branch_withGraph (h : c.graph.LooksLike g) {follow follow' : Follow}
    (hfollow : ∀ target q q', q.Matches q' → (follow target q).Matches (follow' target q'))
    (hp : p.Matches p') (id : NodeId) (handle : Handle) :
    (c.branch id follow handle p).Matches ((c.withGraph g).branch id follow' handle p') := by
  have hsame : (c.withGraph g).graph.outgoing id handle = c.graph.outgoing id handle :=
    h.outgoing id handle
  cases ho : c.graph.outgoing id handle with
  | nil =>
    rw [branch_unconnected ho, branch_unconnected (hsame.trans ho)]
    exact ⟨rfl, rfl, hp⟩
  | cons first ignored =>
    by_cases hcalls : p.calls < c.options.maxCalls
    · have hcalls' : p'.calls < (c.withGraph g).options.maxCalls := by
        rw [hp.calls]
        exact hcalls
      have hwalk := hfollow first.target p p' hp
      rw [branch_followed ho hcalls, branch_followed (hsame.trans ho) hcalls', hwalk.value,
        hwalk.events]
      exact ⟨rfl, rfl, hwalk.progress⟩
    · have hcalls' : (c.withGraph g).options.maxCalls ≤ p'.calls := by
        rw [hp.calls]
        exact not_lt.1 hcalls
      rw [branch_unfollowed ho (not_lt.1 hcalls), branch_unfollowed (hsame.trans ho) hcalls',
        hp.limitReported]
      split_ifs with hreported
      · exact ⟨rfl, rfl, hp⟩
      · exact ⟨rfl, rfl, hp.allocation, hp.calls, rfl⟩

lemma visit_withGraph (h : c.graph.LooksLike g) {expandable : List NodeId}
    {follow follow' : (id : NodeId) → id ∈ expandable → Follow}
    (hfollow : ∀ id hmem target q q', q.Matches q' →
      (follow id hmem target q).Matches (follow' id hmem target q'))
    (hp : p.Matches p') (n : Node) :
    (c.visit expandable follow n p).Matches ((c.withGraph g).visit expandable follow' n p') := by
  unfold visit
  cases n.body with
  | timing call => exact ⟨rfl, rfl, hp⟩
  | valueAcquisition call => exact acquire_withGraph h hp n call
  | consequence call =>
    dsimp only
    rw [serialize_withGraph h hp.allocation]
    exact ⟨rfl, rfl, hp⟩
  | conditional condition =>
    dsimp only
    split_ifs with hmem
    · have htrue := branch_withGraph h (hfollow n.id hmem) hp n.id .whenTrue
      have hfalse := branch_withGraph h (hfollow n.id hmem) htrue.progress n.id .whenFalse
      exact htrue.both hfalse fun onTrue onFalse =>
        some (Statement.conditional condition.text (onTrue.getD []) onFalse)
    · exact ⟨rfl, rfl, hp⟩
  | continueIf condition => exact ⟨rfl, rfl, hp⟩
  | assignment slot embedded =>
    cases embedded with
    | none => exact ⟨rfl, rfl, hp⟩
    | some inner => exact acquire_withGraph h hp n inner.call

/-- Runs over graphs that look alike go on in step. -/
lemma lockstep_withGraph (h : c.graph.LooksLike g) :
    Lockstep c (c.withGraph g) (fun _ => True) (fun p x p' x' => p.Matches p' → x.Matches x')
      (fun _ p x p' x' => p.Matches p' → x.Matches x') where
  conditional id _ := h.isConditional id
  nothing p p' hp := ⟨rfl, rfl, hp⟩
  append := by
    intro p x y p' x' y' hx hy hp
    have hfirst := hx hp
    exact hfirst.both (hy hfirst.progress) (· ++ ·)
  absent id referencedBy p p' hp := ⟨rfl, rfl, hp⟩
  visit := by
    intro expandable follow follow' n p p' _ _ hfollow hp
    have hvisit := visit_withGraph h hfollow hp n
    exact ⟨congrArg Option.toList hvisit.value, congrArg (_ :: ·) hvisit.events,
      hvisit.progress⟩
  call := by
    intro start referencedBy p x p' x' _ hx hp
    have hsweep : (c.withGraph g).graph.sweep start referencedBy =
        c.graph.sweep start referencedBy := h.sweepFrom _ _
    have hin := hx hsweep (fun _ _ => trivial)
      ⟨hp.allocation, congrArg (· + 1) hp.calls, hp.limitReported⟩
    rw [hsweep]
    exact ⟨hin.value, congrArg (_ :: ·) hin.events, hin.progress⟩

/-- A run sees nothing else of its graph. -/
theorem run_withGraph (h : c.graph.LooksLike g) :
    (c.withGraph g).run.map Compilation.ofEmission = c.run.map Compilation.ofEmission := by
  cases ht : c.graph.timings with
  | nil =>
    have ht' : (c.withGraph g).graph.timings = [] := h.timings.trans ht
    simp only [run, ht, ht']
  | cons first others =>
    obtain ⟨entry, call⟩ := first
    have ht' : (c.withGraph g).graph.timings = (entry, call) :: others := h.timings.trans ht
    have hstart : c.start.Matches (c.withGraph g).start := ⟨⟨rfl, h.chosenSlots⟩, rfl, rfl⟩
    have hedges : (c.withGraph g).graph.outgoing entry .output = c.graph.outgoing entry .output :=
      h.outgoing entry .output
    have hstreams := (lockstep_withGraph h).streams
      (fun {target p x p' x'} hwalk hp =>
        have hin := hwalk hp
        ⟨hin.value, congrArg (_ :: ·) hin.events, hin.progress⟩)
      entry (c.graph.outgoing entry .output) c.start (c.withGraph g).start hstart
    rw [run_eq ht, run_eq ht', hedges, header_withGraph h hstart.allocation]
    simp only [Except.map, Compilation.ofEmission, hstreams.value, hstreams.events,
      hstreams.progress.allocation.bindings]

end Matching

end Context

namespace Graph

/-- The second graph has the nodes and edges of the first in another order, in which the
triggers, the edges out of each handle and the edges into each id stand as before. -/
structure Reorders (g g' : Graph) : Prop where
  nodes : g'.nodes.Perm g.nodes
  triggers : g'.nodes.filter (·.variant = .timing) = g.nodes.filter (·.variant = .timing)
  edges : g'.edges.Perm g.edges
  outgoing : ∀ id handle, g'.outgoing id handle = g.outgoing id handle
  incoming : ∀ id, g'.incoming id = g.incoming id

section Reorders

variable {g g' : Graph}

/-- The triggers are all that is read of the nodes that are triggers. -/
lemma timings_filter (g : Graph) :
    Graph.timings ⟨g.nodes.filter (·.variant = .timing), g.edges⟩ = g.timings := by
  unfold timings
  rw [List.filterMap_filter]
  refine List.filterMap_congr fun n _ => ?_
  cases hbody : n.body <;> simp [Node.variant, hbody, Body.variant]

/-- Of distinct ids each stands for the same node in any order of the nodes. -/
lemma node?_perm (hids : (g.nodes.map (·.id)).Nodup) (h : g'.nodes.Perm g.nodes) (id : NodeId) :
    g'.node? id = g.node? id := by
  have hids' : (g'.nodes.map (·.id)).Nodup := (h.map _).nodup_iff.2 hids
  cases hn : g.node? id with
  | none =>
    have hnot : id ∉ g.nodes.map (·.id) := by
      rw [← node?_isSome_iff, hn]
      simp
    have hnot' : ¬ (g'.node? id).isSome := by
      rw [node?_isSome_iff, (h.map _).mem_iff]
      exact hnot
    simpa using hnot'
  | some n =>
    have hmem : n ∈ g'.nodes := h.mem_iff.2 (List.mem_of_find?_eq_some hn)
    obtain rfl := node?_id hn
    obtain ⟨m, hm⟩ : ∃ m, g'.node? n.id = some m :=
      Option.isSome_iff_exists.1 (node?_isSome_iff.2 (List.mem_map_of_mem hmem))
    have hm' : m ∈ g'.nodes := List.mem_of_find?_eq_some hm
    rw [hm, List.inj_on_of_nodup_map hids' hm' hmem (node?_id hm)]

lemma Reorders.looksLike (h : g.Reorders g') (hids : (g.nodes.map (·.id)).Nodup) :
    g.LooksLike g' where
  node? := node?_perm hids h.nodes
  outgoing := h.outgoing
  incoming := h.incoming
  timings := by
    rw [← timings_filter g', ← timings_filter g, h.triggers]
    rfl
  chosenSlots slot := (h.nodes.filterMap _).mem_iff

/-- To compare the edges out of each handle it is enough to go through the edges. -/
lemma outgoing_eq_iff (h : g'.edges.Perm g.edges) :
    (∀ id handle, g'.outgoing id handle = g.outgoing id handle) ↔
      ∀ e ∈ g.edges, g'.outgoing e.source e.sourceHandle = g.outgoing e.source e.sourceHandle := by
  refine ⟨fun hall e _ => hall e.source e.sourceHandle, fun hedges id handle => ?_⟩
  by_cases hex : ∃ e ∈ g.edges, e.source = id ∧ e.sourceHandle = handle
  · obtain ⟨e, he, rfl, rfl⟩ := hex
    exact hedges e he
  · have hnil : ∀ edges : List Edge, edges.Perm g.edges →
        edges.filter (fun e => e.source == id && e.sourceHandle == handle) = [] := by
      intro edges hp
      refine List.filter_eq_nil_iff.2 fun e he heq => hex ⟨e, hp.mem_iff.1 he, ?_⟩
      simpa using heq
    rw [outgoing, outgoing, hnil _ h, hnil _ (.refl _)]

lemma incoming_eq_iff (h : g'.edges.Perm g.edges) :
    (∀ id, g'.incoming id = g.incoming id) ↔
      ∀ e ∈ g.edges, g'.incoming e.target = g.incoming e.target := by
  refine ⟨fun hall e _ => hall e.target, fun hedges id => ?_⟩
  by_cases hex : ∃ e ∈ g.edges, e.target = id
  · obtain ⟨e, he, rfl⟩ := hex
    exact hedges e he
  · have hnil : ∀ edges : List Edge, edges.Perm g.edges →
        edges.filter (·.target == id) = [] := by
      intro edges hp
      refine List.filter_eq_nil_iff.2 fun e he heq => hex ⟨e, hp.mem_iff.1 he, ?_⟩
      simpa using heq
    rw [incoming, incoming, hnil _ h, hnil _ (.refl _)]

instance : Decidable (g.Reorders g') :=
  decidable_of_iff
    (g'.nodes.Perm g.nodes ∧
      g'.nodes.filter (·.variant = .timing) = g.nodes.filter (·.variant = .timing) ∧
      g'.edges.Perm g.edges ∧
      (∀ e ∈ g.edges,
        g'.outgoing e.source e.sourceHandle = g.outgoing e.source e.sourceHandle) ∧
      ∀ e ∈ g.edges, g'.incoming e.target = g.incoming e.target)
    ⟨fun ⟨hnodes, htriggers, hedges, hout, hin⟩ => ⟨hnodes, htriggers, hedges,
      (outgoing_eq_iff hedges).2 hout, (incoming_eq_iff hedges).2 hin⟩,
    fun h => ⟨h.nodes, h.triggers, h.edges, (outgoing_eq_iff h.edges).1 h.outgoing,
      (incoming_eq_iff h.edges).1 h.incoming⟩⟩

end Reorders

/-- Only the relevant orders matter. If ids are distinct, a reordering of nodes and edges that
keeps the triggers in order, and likewise the edges out of each handle and the edges into
each id, leaves the whole compilation as it is. -/
theorem compile_reordered (g g' : Graph) (registry : Registry) (options : Options)
    (hids : (g.nodes.map (·.id)).Nodup) (h : g.Reorders g') :
    g'.compile registry options = g.compile registry options :=
  Context.run_withGraph (c := ⟨g, registry, options⟩) (h.looksLike hids)

/-- Two values, a strike that both of them feed, an assignment that chooses a slot, and a second
trigger. -/
def relay (kept : Slot) : Graph where
  nodes := [⟨"start", default, .timing ⟨"RoundStart", .empty⟩⟩,
    ⟨"life", default, .valueAcquisition ⟨"gethp", .ofList [("target", .text "self")]⟩⟩,
    ⟨"roll", default, .valueAcquisition ⟨"random", .ofList [("max", .text "6")]⟩⟩,
    ⟨"hit", default, .consequence ⟨"damage", .ofList [("amount", .text "2")]⟩⟩,
    ⟨"keep", default, .assignment (some kept)
      (some ⟨"keep_embedded", ⟨"getcount", .ofList [("kind", .text "light")]⟩⟩)⟩,
    ⟨"late", default, .timing ⟨"RoundEnd", .empty⟩⟩]
  edges := [⟨"start", .output, "life", .input⟩, ⟨"life", .output, "roll", .input⟩,
    ⟨"life", .output, "hit", .input⟩, ⟨"roll", .output, "hit", .input⟩,
    ⟨"life", .output, "keep", .input⟩]

/-- The same with the nodes and edges in another order. The edges into the strike are not next to
each other any more, but stand in the same order. -/
def relayTurned (kept : Slot) : Graph where
  nodes := [⟨"keep", default, .assignment (some kept)
      (some ⟨"keep_embedded", ⟨"getcount", .ofList [("kind", .text "light")]⟩⟩)⟩,
    ⟨"hit", default, .consequence ⟨"damage", .ofList [("amount", .text "2")]⟩⟩,
    ⟨"start", default, .timing ⟨"RoundStart", .empty⟩⟩,
    ⟨"roll", default, .valueAcquisition ⟨"random", .ofList [("max", .text "6")]⟩⟩,
    ⟨"late", default, .timing ⟨"RoundEnd", .empty⟩⟩,
    ⟨"life", default, .valueAcquisition ⟨"gethp", .ofList [("target", .text "self")]⟩⟩]
  edges := [⟨"life", .output, "roll", .input⟩, ⟨"life", .output, "hit", .input⟩,
    ⟨"life", .output, "keep", .input⟩, ⟨"start", .output, "life", .input⟩,
    ⟨"roll", .output, "hit", .input⟩]

/-- The chosen slot is kept free for the assignment, and the strike takes the slot of the last
edge into it, in both orders. -/
theorem compile_reordered_relay : ((relay ⟨0⟩).nodes.map (·.id)).Nodup ∧
    (relay ⟨0⟩).Reorders (relayTurned ⟨0⟩) ∧ relayTurned ⟨0⟩ ≠ relay ⟨0⟩ ∧
    ∃ result, (relay ⟨0⟩).compile .builtIn {} = .ok result ∧
      (relayTurned ⟨0⟩).compile .builtIn {} = .ok result ∧
      result.script.text = "Modular/TIMING:RoundStart/VALUE_1:gethp(self)/" ++
        "VALUE_2:random(VALUE_1,6)/damage(VALUE_2,2)/VALUE_0:getcount(VALUE_1,light)/" ∧
      result.bindings = [("life", ⟨1⟩), ("roll", ⟨2⟩), ("keep", ⟨0⟩)] ∧
      result.diagnostics = [.additionalEntryPoint "late"] ∧
      result.trace = [⟨"life", ["life", "roll", "hit", "keep"]⟩] := by
  have hids : ((relay ⟨0⟩).nodes.map (·.id)).Nodup := by decide
  have hreorders : (relay ⟨0⟩).Reorders (relayTurned ⟨0⟩) := by decide
  have hview : ((relay ⟨0⟩).compile .builtIn {}).toOption.map
      (fun result => (result.script.text, result.bindings, result.diagnostics, result.trace)) =
      some ("Modular/TIMING:RoundStart/VALUE_1:gethp(self)/" ++
          "VALUE_2:random(VALUE_1,6)/damage(VALUE_2,2)/VALUE_0:getcount(VALUE_1,light)/",
        [("life", ⟨1⟩), ("roll", ⟨2⟩), ("keep", ⟨0⟩)], [.additionalEntryPoint "late"],
        [⟨"life", ["life", "roll", "hit", "keep"]⟩]) := by cbv
  obtain ⟨result, hok, hparts⟩ := exists_ok_of_map hview
  simp only [Prod.mk.injEq] at hparts
  obtain ⟨htext, hbindings, hdiagnostics, htrace⟩ := hparts
  have hsame := compile_reordered (relay ⟨0⟩) (relayTurned ⟨0⟩) .builtIn {} hids hreorders
  exact ⟨hids, hreorders, by decide, result, hok, hsame.trans hok, htext, hbindings, hdiagnostics,
    htrace⟩

end Graph

end ScriptGraph
