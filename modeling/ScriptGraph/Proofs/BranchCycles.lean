import ScriptGraph.Proofs.Balance
import ScriptGraph.Proofs.Coverage

/-!
# Branches that lead back

A conditional that is met inside one of its own branches is not expanded again, and that is
reported. A walk knows only which conditionals it may still expand, not how it came to where
it is. Still, a report always stands for a route that leaves the conditional by a branch and
comes back to it. Conversely, a walk that reports nothing of the kind has expanded whatever
conditional can be followed to, so none of them is on such a route.
-/
namespace ScriptGraph

open Context (without)

namespace Graph

/-- A followed route leaves the id by a branch and comes back to it. -/
def BranchCycle (g : Graph) (id : NodeId) : Prop := ∃ v, g.BranchStep id v ∧ g.Follows v id

/-- A followed route is made of output edges, or there is a first branch on it. -/
lemma Follows.cases {g : Graph} {start x : NodeId} (h : g.Follows start x) :
    (∃ k, g.OutputRoute start k x) ∨
      ∃ id v, (∃ k, g.OutputRoute start k id) ∧ g.BranchStep id v ∧ g.Follows v x := by
  induction h with
  | refl => exact .inl ⟨0, .nil⟩
  | @tail y z _ hstep ih =>
    rcases ih with ⟨k, hroute⟩ | ⟨id, v, hroute, hbranch, hrest⟩
    · rcases hstep with hout | hbranch
      · exact .inl ⟨k + 1, .snoc hroute hout⟩
      · exact .inr ⟨y, z, ⟨k, hroute⟩, hbranch, .refl⟩
    · exact .inr ⟨id, v, hroute, hbranch, hrest.tail hstep⟩

end Graph

namespace Context

/-- What a report about a conditional says: the walk can follow to it, and either it was not
expandable from the beginning or a branch of it leads back to it. -/
lemma Happens.recursiveBranch {c : Context} {expandable : List NodeId} {start id : NodeId}
    {event : Event} (h : c.Happens expandable start event)
    (he : event = .reported (.recursiveBranch id)) :
    c.graph.IsConditional id ∧ c.graph.Follows start id ∧
      (id ∉ expandable ∨ c.graph.BranchCycle id) := by
  induction h with
  | called => simp at he
  | @caused expandable start referencedBy s event hs hcause =>
    subst he
    cases hcause with
    | @omitted n d homit =>
      rcases omission?_cases homit with ⟨hd, -⟩ | ⟨hd, hv, hmem⟩ | ⟨hd, -⟩ | ⟨call, hd, -⟩
      · simp at hd
      · obtain rfl := Diagnostic.recursiveBranch.inj hd
        obtain ⟨hn, k, hroute⟩ := Graph.present_mem_sweep.1 hs
        exact ⟨⟨n, hn, hv⟩, hroute.follows, .inl hmem⟩
      · simp at hd
      · simp at hd
    | remarked hremark => cases hremark
  | @nested expandable start referencedBy n handle first event hs hv hmem hb hf _ ih =>
    obtain ⟨hconditional, hrest, hcycle⟩ := ih he
    obtain ⟨hn, k, hroute⟩ := Graph.present_mem_sweep.1 hs
    have hbranch : c.graph.BranchStep n.id first.target := ⟨⟨n, hn, hv⟩, handle, first, hb, hf, rfl⟩
    refine ⟨hconditional, (hroute.follows.tail (.inr hbranch)).trans hrest, ?_⟩
    rcases hcycle with hnot | hcycle
    · by_cases hid : id = n.id
      -- The walk of the branch came back to the conditional that it is a branch of.
      · subst hid
        exact .inr ⟨first.target, hbranch, hrest⟩
      · exact .inl fun hin => hnot (mem_without.2 ⟨hin, hid⟩)
    · exact .inr hcycle

/-- A conditional that a sweep meets is expandable or is reported. -/
lemma recursiveBranch_of_route {c : Context} {expandable : List NodeId}
    {start referencedBy id : NodeId} {p : Progress} {k : ℕ} (hid : c.graph.IsConditional id)
    (hroute : c.graph.OutputRoute start k id) (hnot : id ∉ expandable) :
    .reported (.recursiveBranch id) ∈ (c.walk expandable start referencedBy p).events := by
  obtain ⟨n, hn, hv⟩ := hid
  obtain rfl := Graph.node?_id hn
  have hvisited : n.id ∈ (c.graph.sweep start referencedBy).filterMap Step.visitedId? :=
    Graph.mem_visitedIds.2 ⟨by simp [hn], k, hroute⟩
  rw [walk_eq]
  refine List.mem_cons_of_mem _ ?_
  rw [← c.visits_ids expandable (c.nested expandable) _
    ⟨p.allocation, p.calls + 1, p.limitReported⟩] at hvisited
  obtain ⟨v, hmem, hv'⟩ := List.mem_map.1 hvisited
  have hpresent := (Graph.present_mem_sweep.1 (c.mem_visits expandable _ hmem)).1
  obtain rfl : v.1 = n := by simpa [hv', hn] using hpresent.symm
  refine c.perform_reports expandable _ _ _ v hmem _ ?_
  rw [omission?_conditional hv, if_neg hnot]

/-- No conditional is reported to be met inside its own branch. -/
def Unrecursive (events : List Event) : Prop := ∀ id, .reported (.recursiveBranch id) ∉ events

lemma Unrecursive.of_subset {xs ys : List Event} (h : Unrecursive ys) (hsub : xs ⊆ ys) :
    Unrecursive xs := fun id hmem => h id (hsub hmem)

/-- A walk that reports neither the limit nor a conditional inside its own branch may expand
every conditional that can be followed to, and none of them has a branch that leads back. -/
lemma walk_unrecursive {c : Context} {expandable : List NodeId} {start referencedBy : NodeId}
    {p : Progress} (hp : p.limitReported = false)
    (hu : Unlimited (c.walk expandable start referencedBy p).events)
    (hr : Unrecursive (c.walk expandable start referencedBy p).events) :
    ∀ id, c.graph.IsConditional id → c.graph.Follows start id →
      id ∈ expandable ∧ ¬ c.graph.BranchCycle id := by
  induction expandable using walk_induction generalizing start referencedBy p with
  | step expandable ih =>
    have htold := (walk_told hp hu).2
    have hmet : ∀ {id k}, c.graph.IsConditional id → c.graph.OutputRoute start k id →
        id ∈ expandable := by
      intro id k hid hroute
      by_contra hnot
      exact hr id (recursiveBranch_of_route hid hroute hnot)
    -- Behind a branch of a met conditional the walk of that branch has the same properties.
    have hbehind : ∀ {id k v x}, c.graph.OutputRoute start k id → c.graph.BranchStep id v →
        c.graph.IsConditional x → c.graph.Follows v x →
        x ∈ without expandable id ∧ ¬ c.graph.BranchCycle x := by
      rintro id k v x hroute ⟨hid, handle, first, hb, hf, rfl⟩ hx hfollows
      have hmem := hmet hid hroute
      obtain ⟨n, hn, hv⟩ := hid
      obtain rfl := Graph.node?_id hn
      obtain ⟨q, hq, hsub⟩ := (htold _ (Graph.present_mem_sweep.2 ⟨hn, k, hroute⟩)).2 hv hmem
        handle first hb hf
      exact ih n.id hmem hq (hu.of_subset hsub) (hr.of_subset hsub) x hx hfollows
    intro id hid hfollows
    rcases hfollows.cases with ⟨k, hroute⟩ | ⟨other, v, ⟨k, hroute⟩, hbranch, hrest⟩
    · refine ⟨hmet hid hroute, ?_⟩
      rintro ⟨v, hbranch, hback⟩
      exact (mem_without.1 (hbehind hroute hbranch hid hback).1).2 rfl
    · obtain ⟨hmem, hcycle⟩ := hbehind hroute hbranch hid hrest
      exact ⟨(mem_without.1 hmem).1, hcycle⟩

end Context

namespace Graph

lemma recursiveBranch_of_run {c : Context} {entry id : NodeId} {call : Call}
    {others : List (NodeId × Call)} {out : Emission Script}
    (h : c.graph.timings = (entry, call) :: others) (hrun : c.run = .ok out)
    (hmem : .reported (.recursiveBranch id) ∈ out.events) :
    c.graph.IsConditional id ∧ c.graph.Live entry id ∧ c.graph.BranchCycle id := by
  rw [Context.run_eq h] at hrun
  obtain rfl := Except.ok.inj hrun
  rcases List.mem_append.1 hmem with hmem | hmem
  · rcases Context.mem_preamble hmem with ⟨_, he⟩ | he | ⟨_, he⟩ <;> simp at he
  · obtain ⟨e, he, heq | hh⟩ := Context.happens_of_mem_streams hmem
    · simp at heq
    · obtain ⟨hedge, hsource, hhandle⟩ := mem_outgoing.1 he
      obtain ⟨hid, hfollows, hcycle⟩ := hh.recursiveBranch rfl
      refine ⟨hid, ⟨e, hedge, hsource, hhandle, hfollows⟩, ?_⟩
      exact hcycle.resolve_left fun hnot => hnot (mem_conditionalIds.2 hid)

lemma not_branchCycle_of_run {c : Context} {entry id : NodeId} {call : Call}
    {others : List (NodeId × Call)} {out : Emission Script}
    (h : c.graph.timings = (entry, call) :: others) (hrun : c.run = .ok out)
    (hu : Context.Unlimited out.events) (hr : Context.Unrecursive out.events)
    (hid : c.graph.IsConditional id) (hlive : c.graph.Live entry id) :
    ¬ c.graph.BranchCycle id := by
  rw [Context.run_eq h] at hrun
  obtain rfl := Except.ok.inj hrun
  obtain ⟨e, hedge, hsource, hhandle, hfollows⟩ := hlive
  have hsub := List.subset_append_right
    (others.map (fun other => Event.reported (.additionalEntryPoint other.1)) ++
      (c.header c.start.allocation entry call).2.map .reported)
    (c.streams entry (c.graph.outgoing entry .output) c.start).events
  obtain ⟨q, hq, hwalk⟩ := Context.streams_followed rfl (hu.of_subset hsub) e
    (mem_outgoing.2 ⟨hedge, hsource, hhandle⟩)
  have hevents := List.Subset.trans hwalk hsub
  exact (Context.walk_unrecursive hq (hu.of_subset hevents) (hr.of_subset hevents) id hid
    hfollows).2

/-- Branches that lead back are found. If a conditional is reported, it is live and one of its
branches leads back to it; so a graph in which no cycle goes through a branch has no such
report. And if there is a live conditional with a branch that leads back to it, some
conditional is reported, unless the compilation comes to its limit. -/
theorem compile_branch_cycles (g : Graph) (registry : Registry) (options : Options)
    (entry : NodeId) (call : Call) (others : List (NodeId × Call))
    (h : g.timings = (entry, call) :: others) :
    ∃ result, g.compile registry options = .ok result ∧
      (∀ id, .recursiveBranch id ∈ result.diagnostics →
        g.IsConditional id ∧ g.Live entry id ∧ g.BranchCycle id) ∧
      ((∀ id limit, .limitReached id limit ∉ result.diagnostics) →
        (∃ id, g.IsConditional id ∧ g.Live entry id ∧ g.BranchCycle id) →
        ∃ id, .recursiveBranch id ∈ result.diagnostics) ∧
      ((∀ u v, g.BranchStep u v → ¬ g.Follows v u) →
        ∀ id, .recursiveBranch id ∉ result.diagnostics) := by
  set c : Context := ⟨g, registry, options⟩
  obtain ⟨out, hrun⟩ : ∃ out, c.run = .ok out := ⟨_, Context.run_eq h⟩
  have hsound : ∀ id, .reported (.recursiveBranch id) ∈ out.events →
      g.IsConditional id ∧ g.Live entry id ∧ g.BranchCycle id :=
    fun id hmem => recursiveBranch_of_run (c := c) h hrun hmem
  refine ⟨.ofEmission out, by rw [compile, hrun]; rfl, ?_⟩
  simp only [Compilation.ofEmission, Event.mem_diagnostics]
  refine ⟨hsound, ?_, ?_⟩
  · rintro hlimit ⟨id, hid, hlive, hcycle⟩
    by_contra hnone
    exact not_branchCycle_of_run (c := c) h hrun hlimit (not_exists.1 hnone) hid hlive hcycle
  · intro hacyclic id hmem
    obtain ⟨-, -, v, hbranch, hback⟩ := hsound id hmem
    exact hacyclic id v hbranch hback

/-- The true branch of the knot's conditional leads back before it. -/
theorem compile_branch_cycles_knot : knot.timings = [("start", ⟨"Begin", .empty⟩)] ∧
    ∃ result, knot.compile .empty {} = .ok result ∧
      (∀ id limit, .limitReached id limit ∉ result.diagnostics) ∧
      .recursiveBranch "check" ∈ result.diagnostics ∧
      knot.IsConditional "check" ∧ knot.Live "start" "check" ∧ knot.BranchCycle "check" ∧
      ∃ id, .recursiveBranch id ∈ result.diagnostics := by
  have hview : (knot.compile .empty {}).toOption.map (·.diagnostics) =
      some [.unknownFunction "start" "Begin", .recursiveBranch "check",
        .unknownFunction "strike" "Strike", .unexpectedTiming "start",
        .nodeNotFound "gone" "check", .unknownFunction "strike" "Strike",
        .unexpectedTiming "start"] := by cbv
  obtain ⟨result, hok, hdiagnostics⟩ := exists_ok_of_map hview
  have hlimit : ∀ id limit, .limitReached id limit ∉ result.diagnostics := by
    simp [hdiagnostics]
  have hreported : .recursiveBranch "check" ∈ result.diagnostics := by simp [hdiagnostics]
  obtain ⟨other, hother, hsound, hcomplete, -⟩ :=
    compile_branch_cycles knot .empty {} "start" ⟨"Begin", .empty⟩ [] (by cbv)
  obtain rfl : result = other := Except.ok.inj (hok.symm.trans hother)
  obtain ⟨hconditional, hlive, hcycle⟩ := hsound "check" hreported
  exact ⟨by cbv, result, hok, hlimit, hreported, hconditional, hlive, hcycle,
    hcomplete hlimit ⟨"check", hconditional, hlive, hcycle⟩⟩

end Graph

end ScriptGraph
