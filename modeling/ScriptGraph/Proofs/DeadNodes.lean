import ScriptGraph.Proofs.Coverage
import ScriptGraph.Proofs.Ending
import ScriptGraph.Proofs.SlotAllocation
import ScriptGraph.Store.Basic

/-!
# Nodes that are never visited

Removing an id takes its nodes away and all edges at it, also edges of nodes that are
visited. Still, if no traversal call visits the id, the compilation with and without it
run in step: no sweep meets the id, so the sweeps are the same; a branch that leads to it
was cut off by the limit and still is; and since the id is never bound, its edges hand no
slot on. Only reports of ignored edges and of the limit may differ, and those do not if the
id has no edges.
-/
namespace ScriptGraph

open Script (Statement)

namespace Graph

/-- The graph without the nodes of an id and the edges at it. -/
def erase (g : Graph) (d : NodeId) : Graph :=
  ⟨g.nodes.filter (·.id != d), g.edges.filter fun e => e.source != d && e.target != d⟩

/-- No edge starts or ends at the id. -/
def Isolated (g : Graph) (d : NodeId) : Prop := ∀ e ∈ g.edges, e.source ≠ d ∧ e.target ≠ d

section Erase

variable {g : Graph} {d id : NodeId}

lemma node?_erase (h : id ≠ d) : (g.erase d).node? id = g.node? id := node?_filter h

lemma isConditional_erase (h : id ≠ d) : (g.erase d).IsConditional id ↔ g.IsConditional id := by
  unfold IsConditional
  rw [node?_erase h]

lemma outgoing_erase (h : id ≠ d) (handle : Handle) :
    (g.erase d).outgoing id handle = (g.outgoing id handle).filter (·.target != d) := by
  unfold outgoing erase
  rw [List.filter_filter, List.filter_filter]
  refine List.filter_congr fun e _ => Bool.eq_iff_iff.2 ?_
  simp only [Bool.and_eq_true, bne_iff_ne, beq_iff_eq]
  constructor
  · rintro ⟨⟨hsource, hhandle⟩, -, htarget⟩
    exact ⟨htarget, hsource, hhandle⟩
  · rintro ⟨htarget, rfl, hhandle⟩
    exact ⟨⟨rfl, hhandle⟩, h, htarget⟩

lemma incoming_erase (h : id ≠ d) :
    (g.erase d).incoming id = (g.incoming id).filter (·.source != d) := by
  unfold incoming erase
  rw [List.filter_filter, List.filter_filter]
  refine List.filter_congr fun e _ => Bool.eq_iff_iff.2 ?_
  simp only [Bool.and_eq_true, bne_iff_ne, beq_iff_eq]
  constructor
  · rintro ⟨htarget, hsource, -⟩
    exact ⟨hsource, htarget⟩
  · rintro ⟨hsource, rfl⟩
    exact ⟨rfl, hsource, h⟩

lemma Isolated.outgoing_erase (h : g.Isolated d) (handle : Handle) :
    (g.erase d).outgoing id handle = g.outgoing id handle := by
  have hedges : (g.erase d).edges = g.edges :=
    List.filter_eq_self.2 fun e he => by simpa using h e he
  unfold outgoing
  rw [hedges]

lemma timings_erase (h : ∀ n ∈ g.nodes, n.id = d → n.variant ≠ .timing) :
    (g.erase d).timings = g.timings := by
  unfold timings erase
  rw [List.filterMap_filter]
  refine List.filterMap_congr fun n hn => ?_
  by_cases hid : n.id = d
  · have hv := h n hn hid
    cases hbody : n.body <;> simp_all [Node.variant, Body.variant]
  · simp [hid]

lemma ofGraph_erase (h : ∀ n ∈ g.nodes, n.id = d → n.chosenSlot? = none) :
    Allocation.ofGraph (g.erase d) = Allocation.ofGraph g := by
  unfold Allocation.ofGraph erase
  rw [List.filterMap_filter]
  congr 1
  refine List.filterMap_congr fun n hn => ?_
  by_cases hid : n.id = d
  · simp [hid, h n hn hid]
  · simp [hid]

/-- A sweep that cannot come to the id is the same without it. -/
lemma sweepFrom_erase (queue : List (NodeId × NodeId)) (met : List NodeId)
    (h : ∀ entry ∈ queue, ∀ k, ¬ g.OutputRoute entry.1 k d) :
    (g.erase d).sweepFrom queue met = g.sweepFrom queue met := by
  induction queue, met using queue_induction (g := g) with
  | nil met => rw [sweepFrom, sweepFrom]
  | again id referencedBy rest met hmem ih =>
    rw [sweepFrom_again hmem, sweepFrom_again hmem]
    exact ih (List.forall_mem_cons.1 h).2
  | absent id referencedBy rest met hmem hn ih =>
    obtain ⟨hfirst, hrest⟩ := List.forall_mem_cons.1 h
    have hid : id ≠ d := fun he => hfirst 0 (he ▸ .nil)
    rw [sweepFrom_absent hmem hn, sweepFrom_absent hmem (by rwa [node?_erase hid]), ih hrest]
  | present id referencedBy rest met n hmem hn ih =>
    obtain ⟨hfirst, hrest⟩ := List.forall_mem_cons.1 h
    have hid : id ≠ d := fun he => hfirst 0 (he ▸ .nil)
    obtain rfl : n.id = id := node?_id hn
    have hfollow : ∀ entry ∈ g.followers n, ∀ k, ¬ g.OutputRoute entry.1 k d := by
      intro entry hentry k hroute
      exact hfirst (k + 1) (hroute.cons (outputStep_of_mem_followers hn hentry))
    have hsame : (g.erase d).followers n = g.followers n := by
      unfold followers at hfollow ⊢
      split_ifs at hfollow ⊢
      · rfl
      · rw [outgoing_erase hid, List.filter_eq_self.2]
        intro e he
        have htarget : e.target ≠ d :=
          fun hd => hfollow (e.target, n.id) (List.mem_map_of_mem he) 0 (hd ▸ .nil)
        simpa using htarget
    rw [sweepFrom_present hmem hn, sweepFrom_present hmem (by rwa [node?_erase hid]), hsame]
    rw [ih (rest ++ g.followers n)]
    intro entry hentry
    rcases List.mem_append.1 hentry with hentry | hentry
    · exact hrest entry hentry
    · exact hfollow entry hentry

end Erase

end Graph

/-- The binding of an id leaves others unbound. -/
lemma Allocation.slotOf?_bind {a a' : Allocation} {id d : NodeId} {chosen : Option Slot}
    {slot : Slot} (h : a.bind id chosen = some (slot, a')) (hid : id ≠ d)
    (ha : a.slotOf? d = none) : a'.slotOf? d = none := by
  rcases bind_cases h with ⟨-, rfl⟩ | ⟨-, rfl, -⟩
  · exact ha
  · rw [slotOf?_eq_none] at ha ⊢
    simpa [Ne.symm hid] using ha

/-- The report is not about edges that were ignored or a limit that was reached. -/
def Diagnostic.isSteady : Diagnostic → Bool
  | branchFanOut .. => false
  | limitReached .. => false
  | _ => true

/-- The event is not a report that the removal of unvisited nodes may change. -/
def Event.isSteady : Event → Bool
  | reported d => d.isSteady
  | _ => true

namespace Context

/-- The same compilation for the graph without an id. -/
def erase (c : Context) (d : NodeId) : Context := ⟨c.graph.erase d, c.registry, c.options⟩

/-- No traversal call among the events visits the id. -/
def Avoids (d : NodeId) (events : List Event) : Prop :=
  ∀ r, .called r ∈ events → d ∉ r.visited

lemma Avoids.of_subset {d : NodeId} {xs ys : List Event} (h : Avoids d ys) (hsub : xs ⊆ ys) :
    Avoids d xs := fun r hr => h r (hsub hr)

/-- Two states in which the id is unbound and that differ at most in whether the limit was
reported. -/
structure Alike (d : NodeId) (p p' : Progress) : Prop where
  allocation : p'.allocation = p.allocation
  calls : p'.calls = p.calls
  unbound : p.allocation.slotOf? d = none

/-- The second stretch, which is one without the id, gives what the first one gives. If the
id has no edges, and the limit was reported for both or for none before, it has the same
events. -/
structure Spares {α : Type} (g : Graph) (d : NodeId) (p : Progress) (x : Emission α)
    (p' : Progress) (x' : Emission α) : Prop where
  value : x'.value = x.value
  events : x'.events.filter Event.isSteady = x.events.filter Event.isSteady
  alike : Alike d x.progress x'.progress
  isolated : g.Isolated d → p'.limitReported = p.limitReported →
    x'.events = x.events ∧ x'.progress.limitReported = x.progress.limitReported

section Spares

variable {c : Context} {g : Graph} {d : NodeId} {p p' : Progress} {α β γ : Type}

/-- Where neither stretch does anything but emit the same. -/
lemma Alike.spares (h : Alike d p p') (value : α) (events : List Event) :
    Spares g d p ⟨value, events, p⟩ p' ⟨value, events, p'⟩ where
  value := rfl
  events := rfl
  alike := h
  isolated _ hreported := ⟨rfl, hreported⟩

/-- One stretch after another, whatever is made of their values. -/
lemma Spares.both {x x' : Emission α} {y y' : Emission β} (hx : Spares g d p x p' x')
    (hy : Spares g d x.progress y x'.progress y') (f : α → β → γ) :
    Spares g d p ⟨f x.value y.value, x.events ++ y.events, y.progress⟩
      p' ⟨f x'.value y'.value, x'.events ++ y'.events, y'.progress⟩ where
  value := by
    dsimp only
    rw [hx.value, hy.value]
  events := by
    dsimp only
    rw [List.filter_append, List.filter_append, hx.events, hy.events]
  alike := hy.alike
  isolated := by
    intro hisolated hreported
    obtain ⟨hevents, hreported'⟩ := hx.isolated hisolated hreported
    obtain ⟨hevents', hreported''⟩ := hy.isolated hisolated hreported'
    dsimp only
    rw [hevents, hevents']
    exact ⟨rfl, hreported''⟩

/-- The same events in front. -/
lemma Spares.prepend {x x' : Emission α} (h : Spares g d p x p' x') (hp : Alike d p p')
    (events : List Event) : Spares g d p ⟨x.value, events ++ x.events, x.progress⟩
      p' ⟨x'.value, events ++ x'.events, x'.progress⟩ :=
  (hp.spares () events).both h fun _ value => value

lemma incomingSlots_erase {a : Allocation} {id : NodeId} (hid : id ≠ d)
    (ha : a.slotOf? d = none) : (c.erase d).incomingSlots a id = c.incomingSlots a id := by
  unfold incomingSlots
  change ((c.graph.erase d).incoming id).filterMap _ = _
  rw [Graph.incoming_erase hid, List.filterMap_filter]
  congr 1
  funext e
  by_cases hsource : e.source = d
  · simp [hsource, ha]
  · simp [hsource]

lemma serialize_erase {a : Allocation} {id : NodeId} (hid : id ≠ d) (ha : a.slotOf? d = none)
    (call : Call) : (c.erase d).serialize a id call = c.serialize a id call := by
  unfold serialize
  rw [incomingSlots_erase hid ha]
  rfl

lemma spares_acquire {n : Node} (hid : n.id ≠ d) (h : Alike d p p') (call : Call) :
    Spares g d p (c.acquire n call p) p' ((c.erase d).acquire n call p') := by
  unfold acquire
  rw [h.allocation, serialize_erase hid h.unbound]
  obtain ⟨invocation?, problems⟩ := c.serialize p.allocation n.id call
  cases invocation? with
  | none => exact h.spares _ _
  | some invocation =>
    cases hbind : p.allocation.bind n.id n.chosenSlot? with
    | none => exact h.spares _ _
    | some bound =>
      obtain ⟨slot, a⟩ := bound
      have hafter : Alike d ⟨a, p.calls, p.limitReported⟩ ⟨a, p'.calls, p'.limitReported⟩ :=
        ⟨rfl, h.calls, Allocation.slotOf?_bind hbind hid h.unbound⟩
      exact ⟨rfl, rfl, hafter, fun _ hreported => ⟨rfl, hreported⟩⟩

lemma filter_fanOut (c : Context) (id : NodeId) (handle : Handle) (ignored : List Edge) :
    (c.fanOut id handle ignored).filter Event.isSteady = [] := by
  unfold fanOut
  split_ifs <;> rfl

/-- Once the limit is reached a branch gives nothing, wherever it leads. -/
lemma branch_beyond (hcalls : c.options.maxCalls ≤ p.calls) (id : NodeId) (follow : Follow)
    (handle : Handle) : (c.branch id follow handle p).value = none ∧
      (c.branch id follow handle p).events.filter Event.isSteady = [] ∧
      (c.branch id follow handle p).progress.allocation = p.allocation ∧
      (c.branch id follow handle p).progress.calls = p.calls := by
  have hout := c.branch_outcome id follow handle p
  generalize c.branch id follow handle p = out at hout
  cases hout with
  | unconnected _ => exact ⟨rfl, rfl, rfl, rfl⟩
  | followed _ hlt => omega
  | dropped _ _ _ => exact ⟨rfl, c.filter_fanOut _ _ _, rfl, rfl⟩
  | limited _ _ _ =>
    refine ⟨rfl, ?_, rfl, rfl⟩
    rw [List.filter_append, filter_fanOut]
    rfl

lemma spares_branch_beyond (hcalls : c.options.maxCalls ≤ p.calls) (id : NodeId)
    (handle : Handle) (follow follow' : Follow) (h : Alike d p p') :
    Spares c.graph d p (c.branch id follow handle p)
      p' ((c.erase d).branch id follow' handle p') := by
  have hcalls' : (c.erase d).options.maxCalls ≤ p'.calls := by
    rw [h.calls]
    exact hcalls
  obtain ⟨hvalue, hevents, hallocation, hcount⟩ := branch_beyond hcalls id follow handle
  obtain ⟨hvalue', hevents', hallocation', hcount'⟩ := branch_beyond hcalls' id follow' handle
  constructor
  case value => rw [hvalue, hvalue']
  case events => rw [hevents, hevents']
  case alike =>
    constructor
    case allocation => rw [hallocation, hallocation', h.allocation]
    case calls => rw [hcount, hcount', h.calls]
    case unbound =>
      rw [hallocation]
      exact h.unbound
  case isolated =>
    intro hisolated hreported
    have hsame : (c.erase d).graph.outgoing id handle = c.graph.outgoing id handle :=
      hisolated.outgoing_erase handle
    cases ho : c.graph.outgoing id handle with
    | nil =>
      rw [branch_unconnected ho, branch_unconnected (hsame.trans ho)]
      exact ⟨rfl, hreported⟩
    | cons first ignored =>
      rw [branch_unfollowed ho hcalls, branch_unfollowed (hsame.trans ho) hcalls', hreported]
      split_ifs with hlimit
      · exact ⟨rfl, hreported⟩
      · exact ⟨rfl, rfl⟩

/-- If a walk avoids the id, it does not start there, and the walk without the id gives the
same. -/
def SparesWalk (g : Graph) (d start : NodeId) (p : Progress) (x : Emission (List Statement))
    (p' : Progress) (x' : Emission (List Statement)) : Prop :=
  Alike d p p' → Avoids d x.events → start ≠ d ∧ Spares g d p x p' x'

/-- Reports of ignored edges may differ, but not if the edges are the same. -/
lemma spares_fanOut (h : Alike d p p') (id : NodeId) (handle : Handle)
    {ignored ignored' : List Edge} (hignored : c.graph.Isolated d → ignored' = ignored) :
    Spares c.graph d p ⟨(), c.fanOut id handle ignored, p⟩
      p' ⟨(), (c.erase d).fanOut id handle ignored', p'⟩ where
  value := rfl
  events := by rw [filter_fanOut, filter_fanOut]
  alike := h
  isolated := by
    intro hisolated hreported
    rw [hignored hisolated]
    exact ⟨rfl, hreported⟩

/-- A branch that is followed does not lead to the id, and one that is cut off gives nothing
in either run. -/
lemma spares_branch {id : NodeId} (hid : id ≠ d) (handle : Handle) {follow follow' : Follow}
    (hfollow : ∀ target q q',
      SparesWalk c.graph d target q (follow target q) q' (follow' target q'))
    (h : Alike d p p') (havoids : Avoids d (c.branch id follow handle p).events) :
    Spares c.graph d p (c.branch id follow handle p)
      p' ((c.erase d).branch id follow' handle p') := by
  by_cases hcalls : p.calls < c.options.maxCalls
  · have houtgoing : (c.erase d).graph.outgoing id handle =
        (c.graph.outgoing id handle).filter (·.target != d) := Graph.outgoing_erase hid handle
    cases ho : c.graph.outgoing id handle with
    | nil =>
      rw [ho, List.filter_nil] at houtgoing
      rw [branch_unconnected ho, branch_unconnected houtgoing]
      exact h.spares none []
    | cons first ignored =>
      rw [branch_followed ho hcalls] at havoids ⊢
      have hwalk : Avoids d (follow first.target p).events :=
        havoids.of_subset fun event hevent =>
          List.mem_append_right _ (List.mem_cons_of_mem _ hevent)
      -- The walk would visit its start, so the first edge stays and is still the first.
      obtain ⟨htarget, hspares⟩ := hfollow first.target p p' h hwalk
      have hcalls' : p'.calls < (c.erase d).options.maxCalls := by
        rw [h.calls]
        exact hcalls
      rw [ho, List.filter_cons_of_pos (by simpa using htarget)] at houtgoing
      rw [branch_followed houtgoing hcalls']
      have hignored : c.graph.Isolated d → ignored.filter (·.target != d) = ignored := by
        intro hisolated
        refine List.filter_eq_self.2 fun e he => ?_
        have hmem : e ∈ c.graph.outgoing id handle := ho ▸ List.mem_cons_of_mem _ he
        simpa using (hisolated e (Graph.mem_outgoing.1 hmem).1).2
      exact (spares_fanOut h id handle hignored).both
        (hspares.prepend h [.branched id handle first.target]) fun _ value => some value
  · exact spares_branch_beyond (not_lt.1 hcalls) id handle follow follow' h

lemma spares_expand {id : NodeId} (hid : id ≠ d) (condition : Condition)
    {follow follow' : Follow}
    (hfollow : ∀ target q q',
      SparesWalk c.graph d target q (follow target q) q' (follow' target q'))
    (h : Alike d p p') (havoids : Avoids d (c.expand id condition follow p).events) :
    Spares c.graph d p (c.expand id condition follow p)
      p' ((c.erase d).expand id condition follow' p') := by
  have htrue := spares_branch hid .whenTrue hfollow h
    (havoids.of_subset (List.subset_append_left _ _))
  have hfalse := spares_branch hid .whenFalse hfollow htrue.alike
    (havoids.of_subset (List.subset_append_right _ _))
  exact htrue.both hfalse fun onTrue onFalse =>
    some (Statement.conditional condition.text (onTrue.getD []) onFalse)

/-- The visit of another node does not notice the removal. -/
lemma spares_visit {expandable : List NodeId}
    {follow follow' : (id : NodeId) → id ∈ expandable → Follow} {n : Node} (hid : n.id ≠ d)
    (hfollow : ∀ id hmem target q q',
      SparesWalk c.graph d target q (follow id hmem target q) q' (follow' id hmem target q'))
    (h : Alike d p p') (havoids : Avoids d (c.visit expandable follow n p).events) :
    Spares c.graph d p (c.visit expandable follow n p)
      p' ((c.erase d).visit expandable follow' n p') := by
  unfold visit at havoids ⊢
  cases hbody : n.body with
  | timing call => exact h.spares _ _
  | valueAcquisition call => exact spares_acquire hid h call
  | consequence call =>
    dsimp only
    rw [h.allocation, serialize_erase hid h.unbound]
    exact h.spares _ _
  | conditional condition =>
    dsimp only
    rw [hbody] at havoids
    split_ifs at havoids ⊢ with hmem
    · exact spares_expand hid condition (hfollow n.id hmem) h havoids
    · exact h.spares _ _
  | continueIf condition => exact h.spares _ _
  | assignment slot embedded =>
    cases embedded with
    | none => exact h.spares _ _
    | some inner => exact spares_acquire hid h inner.call

/-- A call that does not visit an id that exists has no route to it. -/
lemma not_outputRoute_of_notMem {start referencedBy : NodeId} (hd : (c.graph.node? d).isSome)
    (h : d ∉ (c.graph.sweep start referencedBy).filterMap Step.visitedId?) :
    ∀ k, ¬ c.graph.OutputRoute start k d :=
  fun k hroute => h (Graph.mem_visitedIds.2 ⟨hd, k, hroute⟩)

/-- The runs with and without an id go on in step as long as it is not visited. -/
lemma lockstep_spares (hd : (c.graph.node? d).isSome) :
    Lockstep c (c.erase d) (· ≠ d)
      (fun p x p' x' => Alike d p p' → Avoids d x.events → Spares c.graph d p x p' x')
      (SparesWalk c.graph d) where
  conditional id hid := Graph.isConditional_erase hid
  nothing p p' h _ := h.spares _ _
  append := by
    intro p x y p' x' y' hx hy h havoids
    have hfirst := hx h (havoids.of_subset (List.subset_append_left _ _))
    have hsecond := hy hfirst.alike (havoids.of_subset (List.subset_append_right _ _))
    exact hfirst.both hsecond (· ++ ·)
  absent id referencedBy p p' h _ := h.spares _ _
  visit := by
    intro expandable follow follow' n p p' _ hid hfollow h havoids
    have hvisit := spares_visit hid hfollow h
      (havoids.of_subset (List.subset_cons_self _ _))
    exact (h.spares () [.visited n.id n.variant]).both hvisit fun _ value => value.toList
  call := by
    intro start referencedBy p x p' x' _ hx h havoids
    have hvisited : d ∉ (c.graph.sweep start referencedBy).filterMap Step.visitedId? :=
      havoids _ List.mem_cons_self
    have hroute := not_outputRoute_of_notMem hd hvisited
    have hstart : start ≠ d := fun he => hroute 0 (he ▸ .nil)
    have hsweep : (c.erase d).graph.sweep start referencedBy = c.graph.sweep start referencedBy :=
      Graph.sweepFrom_erase _ _ (by simpa using hroute)
    have hin := hx hsweep (fun id hmem he => hvisited (he ▸ hmem))
      ⟨h.allocation, congrArg (· + 1) h.calls, h.unbound⟩
      (havoids.of_subset (List.subset_cons_self _ _))
    refine ⟨hstart, ?_⟩
    rw [hsweep]
    constructor
    case value => exact hin.value
    case events => exact congrArg (_ :: ·) hin.events
    case alike => exact hin.alike
    case isolated =>
      intro hisolated hreported
      obtain ⟨hevents, hreported'⟩ := hin.isolated hisolated hreported
      exact ⟨congrArg (_ :: ·) hevents, hreported'⟩

/-- Each edge of the entry point leads to a call. -/
lemma called_of_mem_edges (c : Context) (entry : NodeId) {edges : List Edge} {e : Edge}
    (he : e ∈ edges) (p : Progress) :
    .called ⟨e.target, (c.graph.sweep e.target entry).filterMap Step.visitedId?⟩ ∈
      (c.streams entry edges p).events := by
  induction edges generalizing p with
  | nil => simp at he
  | cons first rest ih =>
    rcases List.mem_cons.1 he with rfl | he
    · refine List.mem_append_left _ (List.mem_cons_of_mem _ ?_)
      rw [walk_eq]
      exact List.mem_cons_self
    · exact List.mem_append_right _ (ih he _)

lemma outgoing_erase_of_avoids {entry : NodeId} {p : Progress} (hd : (c.graph.node? d).isSome)
    (hentry : entry ≠ d)
    (h : Avoids d (c.streams entry (c.graph.outgoing entry .output) p).events) :
    (c.erase d).graph.outgoing entry .output = c.graph.outgoing entry .output := by
  have herase : (c.erase d).graph.outgoing entry .output =
      (c.graph.outgoing entry .output).filter (·.target != d) :=
    Graph.outgoing_erase hentry .output
  rw [herase, List.filter_eq_self]
  intro e he
  have hroute := not_outputRoute_of_notMem hd (h _ (c.called_of_mem_edges entry he p))
  have htarget : e.target ≠ d := fun heq => hroute 0 (heq ▸ .nil)
  simpa using htarget

lemma header_erase {a : Allocation} {entry : NodeId} (hentry : entry ≠ d)
    (ha : a.slotOf? d = none) (call : Call) :
    (c.erase d).header a entry call = c.header a entry call := by
  unfold header
  rw [serialize_erase hentry ha]
  rfl

/-- A run that does not visit an id is spared the removal of it. -/
theorem spares_run {entry : NodeId} {call : Call} {others : List (NodeId × Call)}
    {out : Emission Script} (h : c.graph.timings = (entry, call) :: others)
    (hrun : c.run = .ok out) (havoids : Avoids d out.events) (hd : (c.graph.node? d).isSome)
    (hkind : ∀ n ∈ c.graph.nodes, n.id = d → n.variant ≠ .timing ∧ n.chosenSlot? = none) :
    ∃ out', (c.erase d).run = .ok out' ∧ Spares c.graph d c.start out c.start out' := by
  obtain rfl := Except.ok.inj (hrun.symm.trans (run_eq h))
  have hentry : entry ≠ d := by
    obtain ⟨n, hn, hid, hbody⟩ := Graph.exists_node_of_mem_timings (h ▸ List.mem_cons_self)
    have hv : n.variant = .timing := congrArg Body.variant hbody
    exact fun he => (hkind n hn (hid.trans he)).1 hv
  have htimings : (c.erase d).graph.timings = (entry, call) :: others := by
    rw [← h]
    exact Graph.timings_erase fun n hn hid => (hkind n hn hid).1
  have hstart : (c.erase d).start = c.start := by
    have hreserved := Graph.ofGraph_erase fun n hn hid => (hkind n hn hid).2
    unfold start
    exact congrArg (Progress.mk · 0 false) hreserved
  have halike : Alike d c.start c.start := ⟨rfl, rfl, rfl⟩
  have hafter := havoids.of_subset (List.subset_append_right _ _)
  have hedges := outgoing_erase_of_avoids hd hentry hafter
  have hheader : (c.erase d).header c.start.allocation entry call =
      c.header c.start.allocation entry call := header_erase hentry rfl call
  have hstreams := (lockstep_spares hd).streams (fun {target p x p' x'} hwalk halike havoids =>
      (hwalk halike (havoids.of_subset (List.subset_cons_self _ _))).2.prepend halike
        [.streamed target])
    entry (c.graph.outgoing entry .output) c.start c.start halike hafter
  refine ⟨_, run_eq htimings, ?_⟩
  rw [hstart, hheader, hedges]
  exact (halike.spares () _).both hstreams fun _ statements => Script.mk _ statements

end Spares

end Context

namespace Graph

/-- Dead nodes do not matter. Removing an id that is in the graph but is visited by no traversal
call, and under which there is neither a trigger nor an assignment with a slot of its own
choice, leaves the script, the trace and the bindings as they are, and of the diagnostics
all that are not about ignored edges or the limit. -/
theorem compile_erase (g : Graph) (registry : Registry) (options : Options) (d : NodeId)
    (result : Compilation) (h : g.compile registry options = .ok result)
    (hd : g.contains d = true) (hdead : ∀ r ∈ result.trace, d ∉ r.visited)
    (hkind : ∀ n ∈ g.nodes, n.id = d → n.variant ≠ .timing ∧ n.chosenSlot? = none) :
    (∀ origin nextId, Store.remove ⟨g, origin, nextId⟩ d = .ok ⟨g.erase d, origin, nextId⟩) ∧
      ∃ erased, (g.erase d).compile registry options = .ok erased ∧
        erased.script = result.script ∧ erased.trace = result.trace ∧
        erased.bindings = result.bindings ∧
        erased.diagnostics.filter Diagnostic.isSteady =
          result.diagnostics.filter Diagnostic.isSteady := by
  obtain ⟨entry, call, others, ht⟩ := timings_of_compile h
  obtain ⟨out, hrun, rfl⟩ := run_of_compile h
  have hsome : (g.node? d).isSome := node?_isSome_iff.2 (contains_iff.1 hd)
  have havoids : Context.Avoids d out.events := fun r hr => hdead r (Event.mem_trace.2 hr)
  obtain ⟨out', hrun', hspares⟩ := Context.spares_run ht hrun havoids hsome hkind
  refine ⟨fun origin nextId => if_pos hd, .ofEmission out', congrArg (Except.map _) hrun',
    hspares.value, ?_, congrArg Allocation.bindings hspares.alike.allocation, ?_⟩
  · have htrace := congrArg Event.trace hspares.events
    rwa [Event.trace_filter fun _ => rfl, Event.trace_filter fun _ => rfl] at htrace
  · have hdiagnostics := congrArg Event.diagnostics hspares.events
    rwa [Event.diagnostics_filter fun _ => rfl, Event.diagnostics_filter fun _ => rfl]
      at hdiagnostics

/-- A graph in which a value leads into a live one but is itself only at the end of a second
edge of a branch, where it is ignored. -/
def haunted : Graph where
  nodes := [⟨"start", default, .timing ⟨"Begin", .empty⟩⟩, ⟨"check", default, .conditional {}⟩,
    ⟨"ghost", default, .valueAcquisition ⟨"Roll", .empty⟩⟩,
    ⟨"roll", default, .valueAcquisition ⟨"Roll", .empty⟩⟩]
  edges := [⟨"start", .output, "check", .input⟩, ⟨"check", .whenTrue, "roll", .input⟩,
    ⟨"check", .whenTrue, "ghost", .input⟩, ⟨"ghost", .output, "roll", .input⟩]

/-- Without the ghost nothing but the report of the ignored edge is missing. -/
theorem compile_erase_haunted : ∃ result, haunted.compile dice {} = .ok result ∧
    haunted.contains "ghost" = true ∧ (∀ r ∈ result.trace, "ghost" ∉ r.visited) ∧
    result.bindings = [("roll", ⟨0⟩)] ∧
    .branchFanOut "check" .whenTrue 1 ∈ result.diagnostics ∧
    Store.remove ⟨haunted, dice, 0⟩ "ghost" = .ok ⟨haunted.erase "ghost", dice, 0⟩ ∧
    ∃ erased, (haunted.erase "ghost").compile dice {} = .ok erased ∧
      erased.script = result.script ∧ erased.trace = result.trace ∧
      erased.bindings = result.bindings ∧
      .branchFanOut "check" .whenTrue 1 ∉ erased.diagnostics := by
  have hview : (haunted.compile dice {}).toOption.map
      (fun result => (result.trace, result.bindings, result.diagnostics)) =
      some ([⟨"check", ["check"]⟩, ⟨"roll", ["roll"]⟩], [("roll", ⟨0⟩)],
        [.unknownFunction "start" "Begin", .branchFanOut "check" .whenTrue 1]) := by cbv
  have hview' : ((haunted.erase "ghost").compile dice {}).toOption.map (·.diagnostics) =
      some [.unknownFunction "start" "Begin"] := by cbv
  obtain ⟨result, hok, hresult⟩ := exists_ok_of_map hview
  obtain ⟨htrace, hbindings, hdiagnostics⟩ := by simpa using hresult
  have hdead : ∀ r ∈ result.trace, "ghost" ∉ r.visited := by simp [htrace]
  have hkind : ∀ n ∈ haunted.nodes, n.id = "ghost" →
      n.variant ≠ .timing ∧ n.chosenSlot? = none := by decide
  obtain ⟨hremove, erased, herased, hscript, hsame, hbound, -⟩ :=
    compile_erase haunted dice {} "ghost" result hok (by decide) hdead hkind
  obtain ⟨erased', herased', hlist⟩ := exists_ok_of_map hview'
  obtain rfl : erased = erased' := Except.ok.inj (herased.symm.trans herased')
  exact ⟨result, hok, by decide, hdead, hbindings, by simp [hdiagnostics], hremove dice 0,
    erased, herased, hscript, hsame, hbound, by simp [hlist]⟩

end Graph

end ScriptGraph
