import ScriptGraph.Proofs.BranchCycles

/-!
# The flow of visits

A visit is made because a walk starts at its id or because an edge leads there from an id that
is visited. No edge serves twice for one visit of its source. So, counted with repetition, the
visits of a run are among the starts of its streams and the targets of all edges out of its
visits. In a graph without cycles where no two edges enter the same id, nothing is visited
twice, in one traversal call or in several.
-/
namespace ScriptGraph

/-- All visits of the traversal calls among some events, counted with repetition. -/
def Event.allVisits (events : List Event) : Multiset NodeId :=
  ((trace events).flatMap (·.visited) : List NodeId)

namespace Event

@[simp] theorem allVisits_append (xs ys : List Event) :
    allVisits (xs ++ ys) = allVisits xs + allVisits ys := by
  simp [allVisits]

lemma allVisits_called (start : NodeId) (visited : List NodeId) (events : List Event) :
    allVisits (.called ⟨start, visited⟩ :: events) = visited + allVisits events := by
  simp [allVisits, trace, record?]

lemma allVisits_cons {event : Event} (h : event.record? = none) (events : List Event) :
    allVisits (event :: events) = allVisits events := by
  simp [allVisits, trace, h]

/-- Events without a call are without visits. -/
lemma allVisits_eq_zero {events : List Event} (h : ∀ event ∈ events, event.record? = none) :
    allVisits events = 0 := by
  have htrace : trace events = [] := List.filterMap_eq_nil_iff.2 h
  simp [allVisits, htrace]

end Event

open Event (allVisits)

namespace Graph

/-- The targets of the edges that leave a handle of an id. -/
def targets (g : Graph) (handle : Handle) (id : NodeId) : Multiset NodeId :=
  ((g.outgoing id handle).map (·.target) : List NodeId)

def branchTargets (g : Graph) (id : NodeId) : Multiset NodeId :=
  g.targets .whenTrue id + g.targets .whenFalse id

/-- Where a visit can be passed on to. -/
def allTargets (g : Graph) (id : NodeId) : Multiset NodeId :=
  g.targets .output id + g.branchTargets id

/-- A sweep visits its start and targets of what it visits. -/
lemma sweep_fed (g : Graph) (start referencedBy : NodeId) :
    (((g.sweep start referencedBy).filterMap Step.visitedId? : List NodeId) : Multiset NodeId) ≤
      {start} + Multiset.bind ((g.sweep start referencedBy).filterMap Step.visitedId? :
        List NodeId) (g.targets .output) := by
  have hnodup : ((g.sweep start referencedBy).filterMap Step.visitedId?).Nodup :=
    (g.sweep_swept start referencedBy).nodup.sublist (visitedIds_sublist _)
  refine (Multiset.le_iff_subset (Multiset.coe_nodup.2 hnodup)).2 fun id hid => ?_
  obtain ⟨-, k, hroute⟩ := mem_visitedIds.1 (Multiset.mem_coe.1 hid)
  cases hroute with
  | nil => simp
  | @snoc k u _ hroute hstep =>
    obtain ⟨⟨n, hn, -⟩, e, he, hsource, hhandle, htarget⟩ := hstep
    have hu : u ∈ (g.sweep start referencedBy).filterMap Step.visitedId? :=
      mem_visitedIds.2 ⟨by simp [hn], k, hroute⟩
    refine Multiset.mem_add.2 (.inr (Multiset.mem_bind.2 ⟨u, hu, ?_⟩))
    exact List.mem_map.2 ⟨e, mem_outgoing.2 ⟨he, hsource, hhandle⟩, htarget⟩

end Graph

namespace Context

/-- The visits are among those that were given and those that are passed on by visits. -/
def Fed (c : Context) (given : Multiset NodeId) (events : List Event) : Prop :=
  allVisits events ≤ given + (allVisits events).bind c.graph.allTargets

variable {c : Context}

lemma Fed.append {given more : Multiset NodeId} {xs ys : List Event} (hx : c.Fed given xs)
    (hy : c.Fed more ys) : c.Fed (given + more) (xs ++ ys) := by
  unfold Fed at *
  calc allVisits (xs ++ ys) = allVisits xs + allVisits ys := Event.allVisits_append xs ys
    _ ≤ (given + (allVisits xs).bind c.graph.allTargets) +
        (more + (allVisits ys).bind c.graph.allTargets) := add_le_add hx hy
    _ = given + more + (allVisits (xs ++ ys)).bind c.graph.allTargets := by
        rw [Event.allVisits_append, Multiset.add_bind]
        abel

lemma Fed.mono {given more : Multiset NodeId} {events : List Event} (h : c.Fed given events)
    (hle : given ≤ more) : c.Fed more events :=
  h.trans (add_le_add hle le_rfl)

lemma Fed.cons {given : Multiset NodeId} {events : List Event} (h : c.Fed given events)
    (event : Event) (hevent : event.record? = none) : c.Fed given (event :: events) := by
  unfold Fed
  rw [Event.allVisits_cons hevent]
  exact h

lemma fed_of_quiet {events : List Event} (h : ∀ event ∈ events, event.record? = none)
    (given : Multiset NodeId) : c.Fed given events := by
  unfold Fed
  rw [Event.allVisits_eq_zero h]
  exact Multiset.zero_le _

lemma record?_of_mem_fanOut {id : NodeId} {handle : Handle} {ignored : List Edge} :
    ∀ event ∈ c.fanOut id handle ignored, event.record? = none := by
  intro event hevent
  unfold fanOut at hevent
  split_ifs at hevent
  · rw [List.mem_singleton.1 hevent]
    rfl
  · simp at hevent

lemma branch_fed {id : NodeId} {follow : Follow} {handle : Handle}
    (hfollow : ∀ target q, c.Fed {target} (follow target q).events) (p : Progress) :
    c.Fed (c.graph.targets handle id) (c.branch id follow handle p).events := by
  have hout := c.branch_outcome id follow handle p
  generalize c.branch id follow handle p = out at hout
  cases hout with
  | unconnected _ => exact fed_of_quiet (by simp) _
  | @followed first ignored ho _ =>
    have hfan : c.Fed 0 (c.fanOut id handle ignored) := fed_of_quiet c.record?_of_mem_fanOut 0
    have hwalk := (hfollow first.target p).cons (.branched id handle first.target) rfl
    refine (hfan.append hwalk).mono ?_
    rw [zero_add, Multiset.singleton_le, Graph.targets, ho]
    exact List.mem_map_of_mem List.mem_cons_self
  | dropped _ _ _ => exact fed_of_quiet c.record?_of_mem_fanOut _
  | limited _ _ _ =>
    refine fed_of_quiet (List.forall_mem_append.2 ⟨c.record?_of_mem_fanOut, ?_⟩) _
    simp [Event.record?]

/-- A visit passes on no more than the branches of its node. -/
lemma visit_fed {expandable : List NodeId} {follow : (id : NodeId) → id ∈ expandable → Follow}
    (hfollow : ∀ id h target q, c.Fed {target} (follow id h target q).events) (n : Node)
    (p : Progress) :
    c.Fed (c.graph.branchTargets n.id) (c.visit expandable follow n p).events := by
  have hout := c.visit_outcome expandable follow n p
  generalize c.visit expandable follow n p = out at hout
  cases hout with
  | omitted _ => exact fed_of_quiet (by simp [Event.record?]) _
  | written _ _ _ hnotes =>
    refine fed_of_quiet (fun event hevent => ?_) _
    cases hnotes event hevent <;> rfl
  | expanded hmem _ =>
    exact (branch_fed (hfollow n.id hmem) p).append (branch_fed (hfollow n.id hmem) _)

lemma perform_fed {expandable : List NodeId} {follow : (id : NodeId) → id ∈ expandable → Follow}
    (hfollow : ∀ id h target q, c.Fed {target} (follow id h target q).events)
    (steps : List Step) (p : Progress) :
    c.Fed (Multiset.bind (steps.filterMap Step.visitedId? : List NodeId) c.graph.branchTargets)
      (c.perform expandable follow steps p).events := by
  induction steps generalizing p with
  | nil => exact fed_of_quiet (by simp [perform]) _
  | cons s rest ih =>
    cases s with
    | absent id referencedBy => exact (ih p).cons _ rfl
    | present n =>
      have hvisit := (visit_fed hfollow n p).cons (.visited n.id n.variant) rfl
      have hboth := hvisit.append (ih (c.visit expandable follow n p).progress)
      refine hboth.mono (le_of_eq ?_)
      exact (Multiset.cons_bind _ _ _).symm

/-- A walk is fed from its start alone. -/
theorem walk_fed (c : Context) (expandable : List NodeId) (start referencedBy : NodeId)
    (p : Progress) : c.Fed {start} (c.walk expandable start referencedBy p).events := by
  induction expandable using walk_induction generalizing start referencedBy p with
  | step expandable ih =>
    rw [walk_eq]
    have hsweep := c.graph.sweep_fed start referencedBy
    have hnested : ∀ id h target q, c.Fed {target} (c.nested expandable id h target q).events :=
      fun id h target q => ih id h target id q
    have hperform := perform_fed hnested (c.graph.sweep start referencedBy)
      ⟨p.allocation, p.calls + 1, p.limitReported⟩
    unfold Fed at *
    dsimp only
    generalize (c.perform expandable (c.nested expandable) (c.graph.sweep start referencedBy)
      ⟨p.allocation, p.calls + 1, p.limitReported⟩).events = events at hperform
    generalize (c.graph.sweep start referencedBy).filterMap Step.visitedId? = ids at *
    calc allVisits (.called ⟨start, ids⟩ :: events) = ids + allVisits events :=
          Event.allVisits_called start ids events
      _ ≤ ({start} + Multiset.bind ids (c.graph.targets .output)) +
          (Multiset.bind ids c.graph.branchTargets +
            (allVisits events).bind c.graph.allTargets) := add_le_add hsweep hperform
      _ = {start} + (allVisits (.called ⟨start, ids⟩ :: events)).bind c.graph.allTargets := by
          rw [Event.allVisits_called, Multiset.add_bind]
          have hall : Multiset.bind (ids : Multiset NodeId) c.graph.allTargets =
              Multiset.bind ids (c.graph.targets .output) +
                Multiset.bind ids c.graph.branchTargets := Multiset.bind_add _ _ _
          rw [hall]
          abel

lemma streams_fed (c : Context) (entry : NodeId) (edges : List Edge) (p : Progress) :
    c.Fed (edges.map (·.target) : List NodeId) (c.streams entry edges p).events := by
  induction edges generalizing p with
  | nil => exact fed_of_quiet (by simp [streams]) _
  | cons e rest ih =>
    have hwalk := c.walk_fed c.graph.conditionalIds e.target entry p
    have hothers := ih (c.walk c.graph.conditionalIds e.target entry p).progress
    refine ((hwalk.cons (.streamed e.target) rfl).append hothers).mono (le_of_eq ?_)
    exact Multiset.singleton_add _ _

/-- The visits of a run come from the edges of its entry point. -/
theorem run_fed {entry : NodeId} {call : Call} {others : List (NodeId × Call)}
    {out : Emission Script} (h : c.graph.timings = (entry, call) :: others)
    (hrun : c.run = .ok out) : c.Fed (c.graph.targets .output entry) out.events := by
  rw [run_eq h] at hrun
  obtain rfl := Except.ok.inj hrun
  have hpreamble : ∀ event ∈
      others.map (fun other => Event.reported (.additionalEntryPoint other.1)) ++
        (c.header c.start.allocation entry call).2.map .reported, event.record? = none := by
    intro event hevent
    rcases mem_preamble hevent with ⟨_, rfl⟩ | rfl | ⟨_, rfl⟩ <;> rfl
  have hstreams := c.streams_fed entry (c.graph.outgoing entry .output) c.start
  exact ((fed_of_quiet hpreamble 0).append hstreams).mono (le_of_eq (zero_add _))

end Context

namespace Graph

variable {g : Graph}

/-- Edges lead to higher ranks, and no two of them to the same id. -/
structure Branching (g : Graph) (rank : NodeId → ℕ) : Prop where
  ascending : ∀ e ∈ g.edges, rank e.source < rank e.target
  targets_nodup : (g.edges.map (·.target)).Nodup

lemma count_outgoing (g : Graph) (id : NodeId) (handle : Handle) (e : Edge) :
    (g.outgoing id handle).count e =
      if e.source = id ∧ e.sourceHandle = handle then g.edges.count e else 0 := by
  split_ifs with he
  · exact List.count_filter (by simpa using he)
  · exact List.count_eq_zero.2 fun hmem => he (mem_outgoing.1 hmem).2

/-- The targets are those of different edges. -/
lemma allTargets_le (g : Graph) (id : NodeId) :
    g.allTargets id ≤ ((g.edges.filter (·.source == id)).map (·.target) : List NodeId) := by
  have hsplit : (g.outgoing id .output : Multiset Edge) +
      ((g.outgoing id .whenTrue : Multiset Edge) + (g.outgoing id .whenFalse : Multiset Edge)) ≤
      (g.edges.filter (·.source == id) : List Edge) := by
    refine Multiset.le_iff_count.2 fun e => ?_
    simp only [Multiset.count_add, Multiset.coe_count, count_outgoing]
    by_cases hsource : e.source = id
    · rw [List.count_filter (by simpa using hsource)]
      cases e.sourceHandle <;> simp [hsource]
    · simp [hsource]
  have hmap := Multiset.map_le_map hsplit (f := (·.target))
  simpa [allTargets, branchTargets, targets] using hmap

namespace Branching

variable {rank : NodeId → ℕ}

lemma rank_lt (h : g.Branching rank) {u v : NodeId} (hs : g.FollowedStep u v) :
    rank u < rank v := by
  rcases hs with ⟨-, e, he, rfl, -, rfl⟩ | ⟨-, handle, e, -, hhead, rfl⟩
  · exact h.ascending e he
  · obtain ⟨he, rfl, -⟩ := mem_outgoing.1 (List.mem_of_head? hhead)
    exact h.ascending e he

lemma rank_le (h : g.Branching rank) {u v : NodeId} (hfollows : g.Follows u v) :
    rank u ≤ rank v := by
  induction hfollows with
  | refl => exact le_rfl
  | tail _ hs ih => exact ih.trans (h.rank_lt hs).le

/-- Only the source of the one edge into an id passes visits on to it, and each only once. -/
lemma count_allTargets_le (h : g.Branching rank) {e : Edge} (he : e ∈ g.edges) (u : NodeId) :
    (g.allTargets u).count e.target ≤ if u = e.source then 1 else 0 := by
  refine (Multiset.count_le_of_le _ (g.allTargets_le u)).trans ?_
  rw [Multiset.coe_count]
  split_ifs with hu
  · have hsub : ((g.edges.filter (·.source == u)).map (·.target)).Sublist
        (g.edges.map (·.target)) := List.filter_sublist.map _
    exact List.nodup_iff_count_le_one.1 (h.targets_nodup.sublist hsub) e.target
  · refine (List.count_eq_zero.2 fun hmem => hu ?_).le
    obtain ⟨e', he', htarget⟩ := List.mem_map.1 hmem
    obtain ⟨he', hsource⟩ := List.mem_filter.1 he'
    rw [← List.inj_on_of_nodup_map h.targets_nodup he' he htarget]
    exact (beq_iff_eq.1 hsource).symm

/-- So an id is passed on to at most as often as that source is visited. -/
lemma count_bind_le (h : g.Branching rank) {e : Edge} (he : e ∈ g.edges)
    (visited : Multiset NodeId) :
    (visited.bind g.allTargets).count e.target ≤ visited.count e.source := by
  induction visited using Multiset.induction with
  | empty => simp
  | cons u rest ih =>
    rw [Multiset.cons_bind, Multiset.count_add, Multiset.count_cons, add_comm]
    have hu := h.count_allTargets_le he u
    simp only [eq_comm (a := e.source)]
    exact add_le_add ih hu

/-- An id that no edge enters is not passed on to. -/
lemma allTargets_count_eq_zero {id : NodeId} (hid : ∀ e ∈ g.edges, e.target ≠ id) (u : NodeId) :
    (g.allTargets u).count id = 0 := by
  refine Multiset.count_eq_zero.2 fun hmem => ?_
  obtain ⟨e, he, htarget⟩ := List.mem_map.1 (Multiset.mem_of_le (g.allTargets_le u) hmem)
  exact hid e (List.mem_of_mem_filter he) htarget

/-- Visits that come from an id which no edge enters are all of different ids. -/
lemma count_le_one (h : g.Branching rank) {entry : NodeId} {visited : Multiset NodeId}
    (hentry : ∀ e ∈ g.edges, e.target ≠ entry)
    (hfed : visited ≤ g.targets .output entry + visited.bind g.allTargets) (id : NodeId) :
    visited.count id ≤ 1 := by
  have hcount : ∀ id, visited.count id ≤
      (g.allTargets entry).count id + (visited.bind g.allTargets).count id := by
    intro id
    refine (Multiset.count_le_of_le id hfed).trans ?_
    rw [Multiset.count_add]
    exact Nat.add_le_add_right (Multiset.count_le_of_le id (Multiset.le_add_right _ _)) _
  have hnone : ∀ id, (∀ e ∈ g.edges, e.target ≠ id) → visited.count id = 0 := by
    intro id hid
    have hle := hcount id
    simpa [Multiset.count_bind, allTargets_count_eq_zero hid] using hle
  -- The one edge into an id comes from the entry, which is not visited, or from a lower rank.
  induction hrank : rank id using Nat.strong_induction_on generalizing id with
  | _ k ih =>
    by_cases hid : ∃ e ∈ g.edges, e.target = id
    · obtain ⟨e, he, rfl⟩ := hid
      have hle := hcount e.target
      have hpassed := h.count_bind_le he visited
      have hstart := h.count_allTargets_le he entry
      split_ifs at hstart with hsource
      · rw [← hsource, hnone entry hentry] at hpassed
        omega
      · have hbefore := ih (rank e.source) (hrank ▸ h.ascending e he) e.source rfl
        omega
    · exact (hnone id fun e he htarget => hid ⟨e, he, htarget⟩).le.trans zero_le_one

/-- No branch leads back. -/
lemma not_branchCycle (h : g.Branching rank) (id : NodeId) : ¬ g.BranchCycle id := by
  rintro ⟨v, hbranch, hfollows⟩
  have hlt := h.rank_lt (.inr hbranch)
  have hle := h.rank_le hfollows
  omega

/-- No id is visited twice, in one call or in several, and no conditional is met inside its own
branch. -/
theorem run_visits_nodup (h : g.Branching rank) {registry : Registry} {options : Options}
    {entry : NodeId} {call : Call} {others : List (NodeId × Call)} {out : Emission Script}
    (ht : g.timings = (entry, call) :: others) (hentry : ∀ e ∈ g.edges, e.target ≠ entry)
    (hrun : Context.run ⟨g, registry, options⟩ = .ok out) :
    ((Event.trace out.events).flatMap (·.visited)).Nodup ∧
      ∀ id, .reported (.recursiveBranch id) ∉ out.events := by
  constructor
  · have hfed := Context.run_fed (c := ⟨g, registry, options⟩) ht hrun
    exact Multiset.coe_nodup.1 (Multiset.nodup_iff_count_le_one.2 (h.count_le_one hentry hfed))
  · intro id hmem
    have hcycle := (recursiveBranch_of_run (c := ⟨g, registry, options⟩) ht hrun hmem).2.2
    exact h.not_branchCycle id hcycle

end Branching

end Graph

end ScriptGraph
