import ScriptGraph.Proofs.Coverage
import ScriptGraph.Proofs.Runs

/-!
# The limit on traversal calls

The limit is looked at in one place only, before a branch is followed. As long as it keeps
no branch from being followed it makes no difference, and two limits that are never reached
give the same compilation.
-/
namespace ScriptGraph

open Script (Statement)

namespace Context

/-- The same compilation with another limit on calls. -/
def withLimit (c : Context) (limit : ℕ) : Context :=
  ⟨c.graph, c.registry, ⟨c.options.warnOnFanOut, c.options.substitute, limit⟩⟩

/-- The second stretch does what the first one does, if the limit is not reported before
the first one or in it. -/
def Unhindered (p : Progress) (x : Emission (List Statement)) (p' : Progress)
    (x' : Emission (List Statement)) : Prop :=
  p' = p → p.limitReported = false → Unlimited x.events →
    x' = x ∧ x.progress.limitReported = false

section Unhindered

variable {c : Context} {limit : ℕ}

/-- A branch that the lower limit does not cut off is followed under the higher one. -/
lemma branch_withLimit (hlimit : c.options.maxCalls ≤ limit) (id : NodeId)
    {follow follow' : Follow} (handle : Handle) {p : Progress}
    (hfollow : ∀ target q, Unhindered q (follow target q) q (follow' target q))
    (hp : p.limitReported = false) (hu : Unlimited (c.branch id follow handle p).events) :
    (c.withLimit limit).branch id follow' handle p = c.branch id follow handle p ∧
      (c.branch id follow handle p).progress.limitReported = false := by
  cases ho : c.graph.outgoing id handle with
  | nil =>
    rw [branch_unconnected ho, branch_unconnected (c := c.withLimit limit) ho]
    exact ⟨rfl, hp⟩
  | cons first ignored =>
    by_cases hcalls : p.calls < c.options.maxCalls
    · have hcalls' : p.calls < limit := by omega
      rw [branch_followed ho hcalls] at hu ⊢
      rw [branch_followed (c := c.withLimit limit) ho hcalls']
      have hwalk : Unlimited (follow first.target p).events :=
        hu.of_subset fun event hevent =>
          List.mem_append_right _ (List.mem_cons_of_mem _ hevent)
      obtain ⟨hsame, hnot⟩ := hfollow first.target p rfl hp hwalk
      rw [hsame]
      exact ⟨rfl, hnot⟩
    · have hreport : .reported (.limitReached id c.options.maxCalls) ∈
          (c.branch id follow handle p).events := by
        simp [branch, ho, hcalls, hp]
      exact absurd hreport (hu id c.options.maxCalls)

lemma expand_withLimit (hlimit : c.options.maxCalls ≤ limit) (id : NodeId)
    (condition : Condition) {follow follow' : Follow} {p : Progress}
    (hfollow : ∀ target q, Unhindered q (follow target q) q (follow' target q))
    (hp : p.limitReported = false) (hu : Unlimited (c.expand id condition follow p).events) :
    (c.withLimit limit).expand id condition follow' p = c.expand id condition follow p ∧
      (c.expand id condition follow p).progress.limitReported = false := by
  have hu₁ := hu.of_subset (List.subset_append_left _ _)
  have hu₂ := hu.of_subset (List.subset_append_right _ _)
  obtain ⟨htrue, hp₁⟩ := branch_withLimit hlimit id .whenTrue hfollow hp hu₁
  obtain ⟨hfalse, hp₂⟩ := branch_withLimit hlimit id .whenFalse hfollow hp₁ hu₂
  simp only [expand, htrue, hfalse]
  exact ⟨trivial, hp₂⟩

/-- Only the branches of conditionals depend on the limit. -/
lemma visit_withLimit (hlimit : c.options.maxCalls ≤ limit) {expandable : List NodeId}
    {follow follow' : (id : NodeId) → id ∈ expandable → Follow} (n : Node) {p : Progress}
    (hfollow : ∀ id h target q, Unhindered q (follow id h target q) q (follow' id h target q))
    (hp : p.limitReported = false) (hu : Unlimited (c.visit expandable follow n p).events) :
    (c.withLimit limit).visit expandable follow' n p = c.visit expandable follow n p ∧
      (c.visit expandable follow n p).progress.limitReported = false := by
  by_cases hv : n.variant = .conditional
  · obtain ⟨condition, hbody⟩ := Node.variant_eq_conditional.1 hv
    by_cases hmem : n.id ∈ expandable
    · simp only [visit, hbody, dif_pos hmem] at hu ⊢
      exact expand_withLimit hlimit n.id condition (hfollow n.id hmem) hp hu
    · simp only [visit, hbody, dif_neg hmem]
      exact ⟨trivial, hp⟩
  · constructor
    · unfold visit
      split <;> try rfl
      rename_i condition hbody
      exact absurd (Node.variant_eq_conditional.2 ⟨condition, hbody⟩) hv
    · have hout := c.visit_outcome expandable follow n p
      generalize c.visit expandable follow n p = out at hout
      cases hout with
      | omitted _ => exact hp
      | written _ _ _ _ => exact hp
      | expanded _ hbody => exact absurd (Node.variant_eq_conditional.2 ⟨_, hbody⟩) hv

/-- The runs under the two limits go on in step until the lower one is reported. -/
lemma coupling_unhindered (hlimit : c.options.maxCalls ≤ limit) :
    Coupling c (c.withLimit limit) Unhindered where
  graph_eq := rfl
  nothing := by
    intro p p' hp hr _
    exact ⟨by rw [hp], hr⟩
  append := by
    intro p x y p' x' y' hx hy hp hr hu
    obtain ⟨hsame, hr'⟩ := hx hp hr (hu.of_subset (List.subset_append_left _ _))
    have hprogress : x'.progress = x.progress := by rw [hsame]
    obtain ⟨hsame', hr''⟩ := hy hprogress hr' (hu.of_subset (List.subset_append_right _ _))
    exact ⟨by rw [hsame, hsame'], hr''⟩
  absent := by
    intro id referencedBy p p' hp hr _
    exact ⟨by rw [hp], hr⟩
  visit := by
    intro expandable follow follow' n p p' hn hfollow hp hr hu
    have hvisit := visit_withLimit hlimit n (fun id h target q => hfollow id h target q q) hr
      (hu.of_subset (List.subset_cons_self _ _))
    rw [hp, visitStretch, visitStretch, hvisit.1]
    exact ⟨rfl, hvisit.2⟩
  call := by
    intro start visited p x p' x' _ hx hp hr hu
    have hstate : (⟨p'.allocation, p'.calls + 1, p'.limitReported⟩ : Progress) =
        ⟨p.allocation, p.calls + 1, p.limitReported⟩ := by rw [hp]
    obtain ⟨hsame, hr'⟩ := hx hstate hr (hu.of_subset (List.subset_cons_self _ _))
    exact ⟨by rw [hsame], hr'⟩
  streamed := by
    intro target p p' hp hr _
    exact ⟨by rw [hp], hr⟩

/-- A run that does not report its limit is the run under any higher one. -/
theorem run_withLimit (hlimit : c.options.maxCalls ≤ limit)
    (hu : ∀ out, c.run = .ok out → Unlimited out.events) : (c.withLimit limit).run = c.run := by
  cases ht : c.graph.timings with
  | nil => simp only [run, withLimit, ht]
  | cons first others =>
    obtain ⟨entry, call⟩ := first
    have hrun := run_eq ht
    have hstreams := (coupling_unhindered hlimit).streams entry (c.graph.outgoing entry .output)
      c.start c.start rfl rfl ((hu _ hrun).of_subset (List.subset_append_right _ _))
    have hsame : (c.withLimit limit).streams entry
        ((c.withLimit limit).graph.outgoing entry .output) (c.withLimit limit).start =
        c.streams entry (c.graph.outgoing entry .output) c.start := hstreams.1
    rw [hrun, run_eq (c := c.withLimit limit) ht, hsame]
    rfl

end Unhindered

end Context

namespace Graph

/-- The compilation does not report that it came to its limit on calls. -/
def LimitUnreached (g : Graph) (registry : Registry) (options : Options) : Prop :=
  ∀ result, g.compile registry options = .ok result →
    ∀ id limit, .limitReached id limit ∉ result.diagnostics

/-- A limit that is not reached can be raised. -/
lemma LimitUnreached.compile_eq {g : Graph} {registry : Registry} {options : Options}
    (h : g.LimitUnreached registry options) {limit : ℕ} (hlimit : options.maxCalls ≤ limit) :
    g.compile registry { options with maxCalls := limit } = g.compile registry options := by
  have hrun := Context.run_withLimit (c := ⟨g, registry, options⟩) hlimit fun out hout =>
    fun id limit hmem => h (.ofEmission out) (congrArg (Except.map _) hout) id limit
      (Event.mem_diagnostics.2 hmem)
  exact congrArg (Except.map Compilation.ofEmission) hrun

/-- Limits that are not reached give the same compilation, and a limit above one that is
not reached is not reached either. -/
theorem compile_limit_unreached (g : Graph) (registry : Registry) (options : Options)
    (limit limit' : ℕ) :
    (g.LimitUnreached registry { options with maxCalls := limit } →
      g.LimitUnreached registry { options with maxCalls := limit' } →
      g.compile registry { options with maxCalls := limit } =
        g.compile registry { options with maxCalls := limit' }) ∧
    (g.LimitUnreached registry { options with maxCalls := limit } → limit ≤ limit' →
      g.LimitUnreached registry { options with maxCalls := limit' }) := by
  constructor
  · intro h h'
    rcases Nat.le_total limit limit' with hle | hle
    · exact (h.compile_eq hle).symm
    · exact h'.compile_eq hle
  · intro h hle result hresult
    have hsame : g.compile registry { options with maxCalls := limit' } =
        g.compile registry { options with maxCalls := limit } := h.compile_eq hle
    exact h result (hsame ▸ hresult)

/-- The knot takes three calls. One less is too few, and any more make no difference. -/
theorem compile_limit_unreached_knot : ¬ knot.LimitUnreached .empty { maxCalls := 2 } ∧
    knot.LimitUnreached .empty { maxCalls := 3 } ∧
    knot.LimitUnreached .empty { maxCalls := 5 } ∧
    knot.compile .empty { maxCalls := 3 } = knot.compile .empty { maxCalls := 5 } := by
  have hcut : (knot.compile .empty { maxCalls := 2 }).toOption.map
      (fun result => decide (.limitReached "check" 2 ∈ result.diagnostics)) = some true := by cbv
  have hview : (knot.compile .empty { maxCalls := 3 }).toOption.map (·.diagnostics) =
      some [.unknownFunction "start" "Begin", .recursiveBranch "check",
        .unknownFunction "strike" "Strike", .unexpectedTiming "start",
        .nodeNotFound "gone" "check", .unknownFunction "strike" "Strike",
        .unexpectedTiming "start"] := by cbv
  obtain ⟨short, hshort, hreached⟩ := exists_ok_of_map hcut
  have hthree : knot.LimitUnreached .empty { maxCalls := 3 } := by
    intro result hresult
    obtain ⟨result', hok, hdiagnostics⟩ := exists_ok_of_map hview
    obtain rfl : result = result' := Except.ok.inj (hresult.symm.trans hok)
    simp [hdiagnostics]
  obtain ⟨hsame, hraise⟩ := compile_limit_unreached knot .empty {} 3 5
  have hfive := hraise hthree (by decide)
  exact ⟨fun h => h short hshort "check" 2 (of_decide_eq_true hreached), hthree, hfive,
    hsame hthree hfive⟩

end Graph

end ScriptGraph
