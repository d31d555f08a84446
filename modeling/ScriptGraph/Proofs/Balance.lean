import ScriptGraph.Proofs.BreadthFirst

/-!
# The balance of visits and statements

No visited node is lost and none is written twice. A traversal call gives one statement
for each node that it visits and does not leave out, in the order of the visits, and
reports each node that it leaves out. Added up over all calls, visits are statements, those
in branches included, and omissions.
-/
namespace ScriptGraph

open Script (Statement)
open Script.Statement (size sizeList sizeBranch)

namespace Script.Statement

@[simp] theorem sizeList_append (xs ys : List Statement) :
    sizeList (xs ++ ys) = sizeList xs + sizeList ys := by
  induction xs with
  | nil => simp [sizeList]
  | cons s rest ih => simp [sizeList, ih, Nat.add_assoc]

lemma sizeList_getD (branch : Option (List Statement)) :
    sizeList (branch.getD []) = sizeBranch branch := by
  cases branch <;> simp [sizeList, sizeBranch]

end Script.Statement

/-- The problems that leave a visited node without a statement. -/
def Diagnostic.isOmission : Diagnostic → Bool
  | unexpectedTiming _ => true
  | recursiveBranch _ => true
  | missingEmbedded _ => true
  | unknownFunction _ _ => true
  | _ => false

namespace Event

/-- The visits that an event stands for: those of a call, from its record. -/
def visitCount : Event → ℕ
  | called r => r.visited.length
  | _ => 0

/-- One for each node that is reported to be left out. -/
def omissionCount : Event → ℕ
  | reported d => if d.isOmission then 1 else 0
  | _ => 0

lemma totalVisits_trace (events : List Event) :
    (trace events).totalVisits = (events.map visitCount).sum := by
  induction events with
  | nil => rfl
  | cons event rest ih =>
    cases event <;>
      simp_all [trace, record?, List.filterMap_cons, Trace.totalVisits, visitCount]

lemma countP_diagnostics (events : List Event) :
    (diagnostics events).countP Diagnostic.isOmission = (events.map omissionCount).sum := by
  induction events with
  | nil => rfl
  | cons event rest ih =>
    cases event <;> simp_all [diagnostics, diagnostic?, List.filterMap_cons, omissionCount,
      List.countP_cons, add_comm]

end Event

open Event (visitCount omissionCount)

namespace Context

/-- The nodes that the steps of a sweep visit, each with the progress at its visit. -/
def visits (c : Context) (expandable : List NodeId)
    (follow : (id : NodeId) → id ∈ expandable → Follow) :
    List Step → Progress → List (Node × Progress)
  | [], _ => []
  | .absent _ _ :: rest, p => c.visits expandable follow rest p
  | .present n :: rest, p =>
    (n, p) :: c.visits expandable follow rest (c.visit expandable follow n p).progress

section Visits

variable (c : Context) (expandable : List NodeId)
  (follow : (id : NodeId) → id ∈ expandable → Follow)

lemma mem_visits {steps : List Step} {p : Progress} {v : Node × Progress}
    (h : v ∈ c.visits expandable follow steps p) : .present v.1 ∈ steps := by
  induction steps generalizing p with
  | nil => simp [visits] at h
  | cons s rest ih =>
    cases s with
    | absent id referencedBy => exact List.mem_cons_of_mem _ (ih h)
    | present n =>
      rcases List.mem_cons.1 h with rfl | h
      · exact List.mem_cons_self
      · exact List.mem_cons_of_mem _ (ih h)

lemma visits_ids (steps : List Step) (p : Progress) :
    (c.visits expandable follow steps p).map (·.1.id) = steps.filterMap Step.visitedId? := by
  induction steps generalizing p with
  | nil => rfl
  | cons s rest ih =>
    cases s with
    | absent id referencedBy => exact ih p
    | present n => exact congrArg (n.id :: ·) (ih _)

/-- A visit gives the statement that its node asks for, unless there is a reason not to. -/
lemma visit_value (n : Node) (p : Progress) :
    (∃ d, c.omission? expandable n = some d ∧
      (c.visit expandable follow n p).value = none ∧
      .reported d ∈ (c.visit expandable follow n p).events) ∨
    ∃ s, c.omission? expandable n = none ∧
      (c.visit expandable follow n p).value = some s ∧ Realizes n p s := by
  have hout := c.visit_outcome expandable follow n p
  generalize c.visit expandable follow n p = out at hout
  cases hout with
  | omitted homit => exact .inl ⟨_, homit, rfl, List.mem_singleton_self _⟩
  | expanded hmem hbody =>
    exact .inr ⟨_, by simp [omission?, hbody, hmem], rfl, .conditional hbody⟩
  | written homit hv hr hnotes => exact .inr ⟨_, homit, rfl, hr⟩

lemma perform_reports (steps : List Step) (p : Progress) :
    ∀ v ∈ c.visits expandable follow steps p, ∀ d, c.omission? expandable v.1 = some d →
      .reported d ∈ (c.perform expandable follow steps p).events := by
  induction steps generalizing p with
  | nil => simp [visits]
  | cons s rest ih =>
    cases s with
    | absent id referencedBy =>
      intro v hv d hd
      exact List.mem_cons_of_mem _ (ih p v hv d hd)
    | present n =>
      refine List.forall_mem_cons.2 ⟨fun d hd => ?_, fun v hv d hd => ?_⟩
      · rcases c.visit_value expandable follow n p with ⟨d', homit, -, hmem⟩ | ⟨s, homit, -⟩
        · obtain rfl : d = d' := by simpa [homit] using hd.symm
          exact List.mem_append_left _ (List.mem_cons_of_mem _ hmem)
        · simp [homit] at hd
      · exact List.mem_append_right _ (ih _ v hv d hd)

end Visits

section Balance

variable {c : Context}

/-- Every visit among the events is one of so many statements, or left out. -/
def Balanced (statements : ℕ) (events : List Event) : Prop :=
  (events.map visitCount).sum = statements + (events.map omissionCount).sum

lemma Balanced.append {a b : ℕ} {xs ys : List Event} (hx : Balanced a xs) (hy : Balanced b ys) :
    Balanced (a + b) (xs ++ ys) := by
  simp only [Balanced, List.map_append, List.sum_append] at *
  omega

/-- Events that neither visit nor leave out anything do not change the balance. -/
lemma balanced_of_quiet {events : List Event}
    (h : ∀ event ∈ events, event.visitCount = 0 ∧ event.omissionCount = 0) :
    Balanced 0 events := by
  induction events with
  | nil => rfl
  | cons event rest ih =>
    obtain ⟨⟨hv, ho⟩, hrest⟩ := List.forall_mem_cons.1 h
    simpa [Balanced, hv, ho] using ih hrest

lemma balanced_notes {n : Node} {notes : List Event} (h : ∀ event ∈ notes, c.Remarks n event) :
    Balanced 0 notes := by
  refine balanced_of_quiet fun event hevent => ?_
  cases h event hevent <;> exact ⟨rfl, rfl⟩

lemma balanced_fanOut (c : Context) (id : NodeId) (handle : Handle) (ignored : List Edge) :
    Balanced 0 (c.fanOut id handle ignored) := by
  unfold fanOut
  split_ifs <;> rfl

lemma balanced_branch {id : NodeId} {follow : Follow} {handle : Handle} {p : Progress}
    (h : ∀ target q, Balanced (sizeList (follow target q).value) (follow target q).events) :
    Balanced (sizeBranch (c.branch id follow handle p).value)
      (c.branch id follow handle p).events := by
  have hout := c.branch_outcome id follow handle p
  generalize c.branch id follow handle p = out at hout
  cases hout with
  | unconnected ho => rfl
  | @followed first ignored ho hcalls =>
    have hwalk : Balanced (sizeList (follow first.target p).value)
        (.branched id handle first.target :: (follow first.target p).events) :=
      by simpa [Balanced, visitCount, omissionCount] using h first.target p
    simpa [sizeBranch] using (c.balanced_fanOut id handle ignored).append hwalk
  | @dropped first ignored ho hcalls hr => exact c.balanced_fanOut id handle ignored
  | @limited first ignored ho hcalls hr =>
    exact (c.balanced_fanOut id handle ignored).append (b := 0) rfl

lemma isOmission_of_omission? {expandable : List NodeId} {n : Node} {d : Diagnostic}
    (h : c.omission? expandable n = some d) : d.isOmission = true := by
  rcases omission?_cases h with ⟨rfl, -⟩ | ⟨rfl, -⟩ | ⟨rfl, -⟩ | ⟨call, rfl, -⟩ <;> rfl

/-- A visit adds one to its statements and omissions, besides the visits of its branches. -/
lemma balanced_visit (c : Context) {expandable : List NodeId}
    {follow : (id : NodeId) → id ∈ expandable → Follow} (n : Node) (p : Progress)
    (h : ∀ id hmem target q, Balanced (sizeList (follow id hmem target q).value)
      (follow id hmem target q).events) :
    ((c.visit expandable follow n p).events.map visitCount).sum + 1 =
      sizeList (c.visit expandable follow n p).value.toList +
        ((c.visit expandable follow n p).events.map omissionCount).sum := by
  have hout := c.visit_outcome expandable follow n p
  generalize c.visit expandable follow n p = out at hout
  cases hout with
  | omitted homit =>
    simp [visitCount, omissionCount, isOmission_of_omission? homit, sizeList]
  | @written s notes allocation homit hv hr hnotes =>
    have hnotes' : Balanced 0 notes := balanced_notes hnotes
    have hsize : size s = 1 := by
      cases hr with
      | conditional hbody => exact absurd (Node.variant_eq_conditional.2 ⟨_, hbody⟩) hv
      | _ => rfl
    simp only [Balanced, Option.toList_some, sizeList, hsize] at *
    omega
  -- The visit is the statement of the conditional; its branches balance by themselves.
  | expanded hmem hbody =>
    have htrue : Balanced _ (c.branch n.id (follow n.id hmem) .whenTrue p).events :=
      balanced_branch (h n.id hmem)
    have hfalse : Balanced _ (c.branch n.id (follow n.id hmem) .whenFalse
        (c.branch n.id (follow n.id hmem) .whenTrue p).progress).events :=
      balanced_branch (h n.id hmem)
    have hboth := htrue.append hfalse
    simp only [Balanced, expand, Option.toList_some, sizeList, size,
      Script.Statement.sizeList_getD] at *
    omega

lemma balanced_perform (c : Context) {expandable : List NodeId}
    {follow : (id : NodeId) → id ∈ expandable → Follow}
    (h : ∀ id hmem target q, Balanced (sizeList (follow id hmem target q).value)
      (follow id hmem target q).events) (steps : List Step) (p : Progress) :
    (steps.filterMap Step.visitedId?).length +
        ((c.perform expandable follow steps p).events.map visitCount).sum =
      sizeList (c.perform expandable follow steps p).value +
        ((c.perform expandable follow steps p).events.map omissionCount).sum := by
  induction steps generalizing p with
  | nil => rfl
  | cons s rest ih =>
    cases s with
    | absent id referencedBy =>
      have hrest := ih p
      simpa [perform, Step.visitedId?, List.filterMap_cons, visitCount, omissionCount,
        Diagnostic.isOmission] using hrest
    | present n =>
      have hvisit := c.balanced_visit n p h
      have hrest := ih (c.visit expandable follow n p).progress
      simp only [perform, Step.visitedId?, List.filterMap_cons, List.length_cons,
        List.map_append, List.map_cons, List.sum_append, List.sum_cons, visitCount, omissionCount,
        Script.Statement.sizeList_append] at *
      omega

lemma balanced_walk (c : Context) (expandable : List NodeId) (start referencedBy : NodeId)
    (p : Progress) :
    Balanced (sizeList (c.walk expandable start referencedBy p).value)
      (c.walk expandable start referencedBy p).events := by
  induction expandable using walk_induction generalizing start referencedBy p with
  | step expandable ih =>
    rw [walk_eq]
    have hnested : ∀ id hmem target q,
        Balanced (sizeList (c.nested expandable id hmem target q).value)
          (c.nested expandable id hmem target q).events :=
      fun id hmem target q => ih id hmem target id q
    have hh := c.balanced_perform hnested
      (c.graph.sweep start referencedBy) ⟨p.allocation, p.calls + 1, p.limitReported⟩
    simpa [Balanced, visitCount, omissionCount] using hh

lemma balanced_streams (c : Context) (entry : NodeId) (edges : List Edge) (p : Progress) :
    Balanced (sizeList (c.streams entry edges p).value) (c.streams entry edges p).events := by
  induction edges generalizing p with
  | nil => rfl
  | cons e rest ih =>
    have hwalk := c.balanced_walk c.graph.conditionalIds e.target entry p
    have hh := hwalk.append (ih (c.walk c.graph.conditionalIds e.target entry p).progress)
    simpa [Balanced, streams, visitCount, omissionCount] using hh

end Balance

end Context

namespace Context

end Context

namespace Graph

end Graph

end ScriptGraph
