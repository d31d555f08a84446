import ScriptGraph.Proofs.Coverage
import ScriptGraph.Proofs.Runs

/-!
# Reports of ignored edges

Of the edges on a branch only the first is followed. Whether the others are reported is an
option that is looked at in one place, and nothing else depends on it: two runs that differ in
this option are in the same state at every step, and their events differ in these reports only.
-/
namespace ScriptGraph

open Script (Statement)
open ScriptGraph.Graph (IsBranch)

/-- Edges beyond the first on a branch were ignored. -/
def Diagnostic.isFanOut : Diagnostic → Bool
  | branchFanOut .. => true
  | _ => false

/-- The event is a report of ignored edges. -/
def Event.isFanOut : Event → Bool
  | reported d => d.isFanOut
  | _ => false

/-- A result without the reports of ignored edges on the way to it. -/
def Emission.hushed {α : Type} (x : Emission α) : Emission α :=
  ⟨x.value, x.events.filter (!·.isFanOut), x.progress⟩

lemma Emission.hushed_append (x y : Emission (List Statement)) :
    (x.append y).hushed = x.hushed.append y.hushed := by
  simp [hushed, append]

/-- Where no ignored edges are reported there is nothing to leave out. -/
lemma Emission.hushed_of_forall {α : Type} {x : Emission α}
    (h : ∀ event ∈ x.events, event.isFanOut = false) : x.hushed = x := by
  have hevents : x.events.filter (!·.isFanOut) = x.events := by
    refine List.filter_eq_self.2 fun event hevent => ?_
    simp [h event hevent]
  rw [hushed, hevents]

namespace Context

/-- The same compilation without reports of ignored edges. -/
def hushed (c : Context) : Context :=
  ⟨c.graph, c.registry, ⟨false, c.options.substitute, c.options.maxCalls⟩⟩

variable {c : Context}

lemma fanOut_hushed (id : NodeId) (handle : Handle) (ignored : List Edge) :
    c.hushed.fanOut id handle ignored = [] := by
  simp [fanOut, hushed]

lemma filter_fanOut_isFanOut (id : NodeId) (handle : Handle) (ignored : List Edge) :
    (c.fanOut id handle ignored).filter (!·.isFanOut) = [] := by
  unfold fanOut
  split_ifs <;> rfl

/-- The report of ignored edges is all that a branch loses. -/
lemma branch_hushed (id : NodeId) {follow follow' : Follow} (handle : Handle) (p : Progress)
    (hfollow : ∀ target q, follow' target q = (follow target q).hushed) :
    c.hushed.branch id follow' handle p = (c.branch id follow handle p).hushed := by
  cases ho : c.graph.outgoing id handle with
  | nil =>
    rw [branch_unconnected ho, branch_unconnected (c := c.hushed) ho]
    rfl
  | cons first ignored =>
    by_cases hcalls : p.calls < c.options.maxCalls
    · rw [branch_followed ho hcalls, branch_followed (c := c.hushed) ho hcalls, fanOut_hushed,
        hfollow first.target p]
      simp only [Emission.hushed, List.filter_append, filter_fanOut_isFanOut]
      rfl
    · have hreached : c.options.maxCalls ≤ p.calls := not_lt.1 hcalls
      rw [branch_unfollowed ho hreached, branch_unfollowed (c := c.hushed) ho hreached,
        fanOut_hushed]
      by_cases hr : p.limitReported = true
      · simp only [if_pos hr, Emission.hushed, filter_fanOut_isFanOut]
      · simp only [if_neg hr, Emission.hushed, List.filter_append, filter_fanOut_isFanOut]
        rfl

lemma expand_hushed (id : NodeId) (condition : Condition) {follow follow' : Follow}
    (p : Progress) (hfollow : ∀ target q, follow' target q = (follow target q).hushed) :
    c.hushed.expand id condition follow' p = (c.expand id condition follow p).hushed := by
  have htrue := branch_hushed (c := c) id .whenTrue p hfollow
  have hfalse : c.hushed.branch id follow' .whenFalse
      (c.branch id follow .whenTrue p).hushed.progress = _ :=
    branch_hushed id .whenFalse (c.branch id follow .whenTrue p).progress hfollow
  simp only [expand, htrue, hfalse]
  simp [Emission.hushed]

/-- A node that is no conditional has no branches. -/
lemma isFanOut_of_mem_visit {expandable : List NodeId}
    {follow : (id : NodeId) → id ∈ expandable → Follow} {n : Node} (hv : n.variant ≠ .conditional)
    (p : Progress) :
    ∀ event ∈ (c.visit expandable follow n p).events, event.isFanOut = false := by
  have hout := c.visit_outcome expandable follow n p
  generalize c.visit expandable follow n p = out at hout
  cases hout with
  | omitted homit =>
    intro event hevent
    rw [List.mem_singleton.1 hevent]
    rcases omission?_cases homit with ⟨rfl, -⟩ | ⟨rfl, -⟩ | ⟨rfl, -⟩ | ⟨call, rfl, -⟩ <;> rfl
  | written _ _ _ hnotes =>
    intro event hevent
    cases hnotes event hevent <;> rfl
  | expanded _ hbody => exact absurd (Node.variant_eq_conditional.2 ⟨_, hbody⟩) hv

lemma visit_hushed {expandable : List NodeId}
    {follow follow' : (id : NodeId) → id ∈ expandable → Follow} (n : Node) (p : Progress)
    (hfollow : ∀ id h target q, follow' id h target q = (follow id h target q).hushed) :
    c.hushed.visit expandable follow' n p = (c.visit expandable follow n p).hushed := by
  by_cases hv : n.variant = .conditional
  · obtain ⟨condition, hbody⟩ := Node.variant_eq_conditional.1 hv
    by_cases hmem : n.id ∈ expandable
    · simp only [visit, hbody, dif_pos hmem]
      exact expand_hushed n.id condition p (hfollow n.id hmem)
    · simp only [visit, hbody, dif_neg hmem]
      rfl
  · rw [Emission.hushed_of_forall (isFanOut_of_mem_visit hv p)]
    unfold visit
    split <;> try rfl
    rename_i condition hbody
    exact absurd (Node.variant_eq_conditional.2 ⟨condition, hbody⟩) hv

/-- The runs with and without the reports are in the same state at every step. -/
lemma coupling_hushed (c : Context) :
    Coupling c c.hushed fun p x p' x' => p' = p → x' = x.hushed where
  graph_eq := rfl
  nothing := by
    rintro p p' rfl
    rfl
  append := by
    intro p x y p' x' y' hx hy hp
    have hsame := hx hp
    have hprogress : x'.progress = x.progress := by rw [hsame]; rfl
    rw [Emission.hushed_append, hsame, hy hprogress]
  absent := by
    rintro id referencedBy p p' rfl
    rfl
  visit := by
    rintro expandable follow follow' n p p' - hfollow rfl
    have hvisit := visit_hushed (c := c) n p' fun id h target q => hfollow id h target q q rfl
    rw [visitStretch, visitStretch, hvisit]
    rfl
  call := by
    rintro start visited p x p' x' - hx rfl
    rw [hx rfl]
    rfl
  streamed := by
    rintro target p p' rfl
    rfl

/-- A run without the reports is the run with them, less the reports. -/
theorem run_hushed (c : Context) : c.hushed.run = c.run.map Emission.hushed := by
  cases ht : c.graph.timings with
  | nil => simp only [run, hushed, ht, Except.map]
  | cons first others =>
    obtain ⟨entry, call⟩ := first
    have hpreamble : ∀ event ∈
        others.map (fun other => Event.reported (.additionalEntryPoint other.1)) ++
          (c.header c.start.allocation entry call).2.map .reported, (!event.isFanOut) = true := by
      intro event hevent
      rcases mem_preamble hevent with ⟨id, rfl⟩ | rfl | ⟨slot, rfl⟩ <;> rfl
    have hstreams : c.hushed.streams entry (c.hushed.graph.outgoing entry .output) c.hushed.start =
        (c.streams entry (c.graph.outgoing entry .output) c.start).hushed :=
      c.coupling_hushed.streams entry _ c.start c.start rfl
    rw [run_eq ht, run_eq (c := c.hushed) ht, hstreams]
    change _ = Except.ok (Emission.mk _ (List.filter _ (_ ++ _)) _)
    rw [List.filter_append, List.filter_eq_self.2 hpreamble]
    rfl

end Context

namespace Graph

/-- A report of ignored edges is true: the conditional has more than one edge on that branch,
and all but the first are ignored. -/
lemma branchFanOut_of_run {c : Context} {entry id : NodeId} {call : Call}
    {others : List (NodeId × Call)} {out : Emission Script} {handle : Handle} {ignored : ℕ}
    (h : c.graph.timings = (entry, call) :: others) (hrun : c.run = .ok out)
    (hmem : .reported (.branchFanOut id handle ignored) ∈ out.events) :
    c.graph.IsConditional id ∧ IsBranch handle ∧ 1 < (c.graph.outgoing id handle).length ∧
      ignored = (c.graph.outgoing id handle).length - 1 := by
  rcases exists_step_of_run h hrun hmem with hmem | ⟨ids, s, hcause, htrue, -⟩
  · rcases Context.mem_preamble hmem with ⟨_, he⟩ | he | ⟨_, he⟩ <;> cases he
  · cases hcause with
    | omitted homit =>
      rcases Context.omission?_cases homit with ⟨hd, -⟩ | ⟨hd, -⟩ | ⟨hd, -⟩ | ⟨_, hd, -⟩ <;>
        cases hd
    | remarked hremark => cases hremark
    | @fannedOut n _ first rest hv hb ho hne _ =>
      have hpos := List.length_pos_iff.2 hne
      rw [ho, List.length_cons]
      exact ⟨⟨n, htrue, hv⟩, hb, by omega, by omega⟩

/-- Reports of ignored edges are nothing but reports. With and without them a compilation
fails, or succeeds with the same script, trace and bindings, and the diagnostics without them
are those with them, less these reports. Each report names a conditional and a branch of it
with more than one edge, and says how many there are beyond the first. -/
theorem compile_fanOut_reports (g : Graph) (registry : Registry) (options : Options) :
    (g.compile registry { options with warnOnFanOut := true } = .error .noEntryPoint ∧
      g.compile registry { options with warnOnFanOut := false } = .error .noEntryPoint) ∨
    ∃ loud quiet, g.compile registry { options with warnOnFanOut := true } = .ok loud ∧
      g.compile registry { options with warnOnFanOut := false } = .ok quiet ∧
      quiet.script = loud.script ∧ quiet.trace = loud.trace ∧ quiet.bindings = loud.bindings ∧
      quiet.diagnostics = loud.diagnostics.filter (!·.isFanOut) ∧
      ∀ id handle ignored, .branchFanOut id handle ignored ∈ loud.diagnostics →
        g.IsConditional id ∧ IsBranch handle ∧ 1 < (g.outgoing id handle).length ∧
          ignored = (g.outgoing id handle).length - 1 := by
  set c : Context := ⟨g, registry, { options with warnOnFanOut := true }⟩
  have hhushed : Context.run ⟨g, registry, { options with warnOnFanOut := false }⟩ =
      c.run.map Emission.hushed := c.run_hushed
  unfold compile
  rw [hhushed]
  cases ht : g.timings with
  | nil =>
    have hrun : c.run = .error .noEntryPoint := by simp only [Context.run, c, ht]
    exact .inl ⟨by rw [hrun]; rfl, by rw [hrun]; rfl⟩
  | cons first others =>
    have hrun := Context.run_eq (c := c) ht
    generalize Emission.mk _ _ _ = out at hrun
    refine .inr ⟨.ofEmission out, .ofEmission out.hushed, by rw [hrun]; rfl, by rw [hrun]; rfl,
      rfl, ?_, rfl, ?_, ?_⟩
    · exact Event.trace_filter (fun _ => rfl) out.events
    · exact Event.diagnostics_filter (fun _ => rfl) out.events
    · intro id handle ignored hmem
      exact branchFanOut_of_run (c := c) ht hrun (Event.mem_diagnostics.1 hmem)

/-- A graph with three edges on the true branch of its conditional and two on the false one. -/
def splayed : Graph where
  nodes := [⟨"start", default, .timing ⟨"Begin", .empty⟩⟩, ⟨"check", default, .conditional {}⟩,
    ⟨"stop", default, .continueIf {}⟩, ⟨"strike", default, .consequence ⟨"Strike", .empty⟩⟩]
  edges := [⟨"start", .output, "check", .input⟩, ⟨"check", .whenTrue, "stop", .input⟩,
    ⟨"check", .whenFalse, "strike", .input⟩, ⟨"check", .whenTrue, "strike", .input⟩,
    ⟨"check", .whenFalse, "stop", .input⟩, ⟨"check", .whenTrue, "check", .input⟩]

/-- The reports stand between others, and with them gone the others keep their order. -/
theorem compile_fanOut_reports_splayed :
    ∃ loud quiet, splayed.compile .empty { warnOnFanOut := true } = .ok loud ∧
      splayed.compile .empty { warnOnFanOut := false } = .ok quiet ∧
      loud.diagnostics = [.unknownFunction "start" "Begin", .branchFanOut "check" .whenTrue 2,
        .branchFanOut "check" .whenFalse 1, .unknownFunction "strike" "Strike"] ∧
      quiet.script = loud.script ∧ quiet.trace = loud.trace ∧ quiet.bindings = loud.bindings ∧
      quiet.diagnostics =
        [.unknownFunction "start" "Begin", .unknownFunction "strike" "Strike"] ∧
      splayed.IsConditional "check" ∧ 1 < (splayed.outgoing "check" .whenTrue).length ∧
      2 = (splayed.outgoing "check" .whenTrue).length - 1 := by
  have hview : (splayed.compile .empty { warnOnFanOut := true }).toOption.map (·.diagnostics) =
      some [.unknownFunction "start" "Begin", .branchFanOut "check" .whenTrue 2,
        .branchFanOut "check" .whenFalse 1, .unknownFunction "strike" "Strike"] := by cbv
  obtain ⟨result, hok, hdiagnostics⟩ := exists_ok_of_map hview
  rcases compile_fanOut_reports splayed .empty {} with
    ⟨herror, -⟩ | ⟨loud, quiet, hloud, hquiet, hscript, htrace, hbindings, hfilter, hsound⟩
  · rw [hok] at herror
    cases herror
  · obtain rfl : result = loud := Except.ok.inj (hok.symm.trans hloud)
    obtain ⟨hconditional, -, hmany, hcount⟩ :=
      hsound "check" .whenTrue 2 (by simp [hdiagnostics])
    refine ⟨result, quiet, hloud, hquiet, hdiagnostics, hscript, htrace, hbindings, ?_,
      hconditional, hmany, hcount⟩
    rw [hfilter, hdiagnostics]
    rfl

end Graph

end ScriptGraph
