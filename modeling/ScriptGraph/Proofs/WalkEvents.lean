import ScriptGraph.Pass.Compilation
import ScriptGraph.Proofs.Routes

/-!
# What happens in a walk

Each function that a walk is made of has one statement here that says everything it can
come to, and later proofs go by these cases and do not open the functions again. Put
together they give `Happens`, the events that a walk can have.
-/
namespace ScriptGraph

open Script (Statement)
open ScriptGraph.Graph (IsBranch)

namespace Event

@[simp] theorem mem_diagnostics {events : List Event} {d : Diagnostic} :
    d ∈ diagnostics events ↔ .reported d ∈ events := by
  simp only [diagnostics, List.mem_filterMap]
  constructor
  · rintro ⟨e, he, hd⟩
    cases e <;> simp_all [diagnostic?]
  · exact fun h => ⟨_, h, rfl⟩

@[simp] theorem mem_trace {events : List Event} {r : TraversalRecord} :
    r ∈ trace events ↔ .called r ∈ events := by
  simp only [trace, List.mem_filterMap]
  constructor
  · rintro ⟨e, he, hr⟩
    cases e <;> simp_all [record?]
  · exact fun h => ⟨_, h, rfl⟩

/-- Events may be left out before or after they are viewed as diagnostics. -/
lemma diagnostics_filter {keep : Event → Bool} {keep' : Diagnostic → Bool}
    (h : ∀ d, keep (.reported d) = keep' d) (events : List Event) :
    diagnostics (events.filter keep) = (diagnostics events).filter keep' := by
  rw [diagnostics, diagnostics, List.filterMap_filter, List.filter_filterMap]
  congr 1
  funext event
  cases event <;> simp [diagnostic?, h, Option.filter]

/-- Leaving out events that are no calls does not change the trace. -/
lemma trace_filter {keep : Event → Bool} (h : ∀ r, keep (.called r) = true)
    (events : List Event) : trace (events.filter keep) = trace events := by
  rw [trace, trace, List.filterMap_filter]
  congr 1
  funext event
  cases event <;> simp [record?, h]

end Event

lemma Allocation.bind_eq_none_iff {a : Allocation} {id : NodeId} {chosen : Option Slot} :
    a.bind id chosen = none ↔
      a.slotOf? id = none ∧ chosen = none ∧ a.lowestFree? = none := by
  unfold bind
  cases hs : a.slotOf? id <;> cases chosen <;> simp

namespace Context

/-- Why a visited node gives no statement, if it gives none. -/
def omission? (c : Context) (expandable : List NodeId) (n : Node) : Option Diagnostic :=
  match n.body with
  | .timing _ => some (.unexpectedTiming n.id)
  | .conditional _ => if n.id ∈ expandable then none else some (.recursiveBranch n.id)
  | .assignment _ none => some (.missingEmbedded n.id)
  | body => body.call?.bind fun call =>
    if (c.registry.lookup? call.function).isSome then none
    else some (.unknownFunction n.id call.function)

lemma omission?_cases {c : Context} {expandable : List NodeId} {n : Node} {d : Diagnostic}
    (h : c.omission? expandable n = some d) :
    (d = .unexpectedTiming n.id ∧ n.variant = .timing) ∨
    (d = .recursiveBranch n.id ∧ n.variant = .conditional ∧ n.id ∉ expandable) ∨
    (d = .missingEmbedded n.id ∧ ∃ slot, n.body = .assignment slot none) ∨
    ∃ call, d = .unknownFunction n.id call.function ∧ n.variant ≠ .timing ∧
      n.body.call? = some call ∧ c.registry.lookup? call.function = none := by
  unfold omission? at h
  unfold Node.variant
  split at h
  · rename_i call hbody
    exact .inl ⟨(Option.some.inj h).symm, by rw [hbody]; rfl⟩
  · rename_i condition hbody
    split_ifs at h with hmem
    exact .inr (.inl ⟨(Option.some.inj h).symm, by rw [hbody]; rfl, hmem⟩)
  · rename_i slot hbody
    exact .inr (.inr (.inl ⟨(Option.some.inj h).symm, slot, hbody⟩))
  · rename_i htiming _ _
    obtain ⟨call, hcall, hd⟩ := Option.bind_eq_some_iff.1 h
    split_ifs at hd with hs
    refine .inr (.inr (.inr ⟨call, (Option.some.inj hd).symm, ?_, hcall, by simpa using hs⟩))
    intro hv
    cases hbody : n.body <;> simp [hbody, Body.variant] at hv
    exact htiming _ hbody

lemma omission?_timing {c : Context} {expandable : List NodeId} {n : Node}
    (h : n.variant = .timing) : c.omission? expandable n = some (.unexpectedTiming n.id) := by
  cases hbody : n.body <;> simp_all [omission?, Node.variant, Body.variant]

lemma omission?_conditional {c : Context} {expandable : List NodeId} {n : Node}
    (h : n.variant = .conditional) : c.omission? expandable n =
      if n.id ∈ expandable then none else some (.recursiveBranch n.id) := by
  cases hbody : n.body <;> simp_all [omission?, Node.variant, Body.variant]

/-- The statement is of the kind that the node asks for. A value is left unbound only if
the node holds no slot, chooses none, and none is free when it is visited. -/
inductive Realizes (n : Node) (p : Progress) : Statement → Prop
  | conditional {condition : Condition} {onTrue : List Statement}
      {onFalse : Option (List Statement)} : n.body = .conditional condition →
      Realizes n p (.conditional condition.text onTrue onFalse)
  | continueIf {condition : Condition} : n.body = .continueIf condition →
      Realizes n p (.continueIf condition.text)
  | consequence {call : Call} {arguments : List String} : n.body = .consequence call →
      Realizes n p (.call ⟨call.function, arguments⟩)
  | bound {call : Call} {slot : Slot} {arguments : List String} :
      n.variant = .valueAcquisition ∨ n.variant = .assignment → n.body.call? = some call →
      Realizes n p (.assign slot ⟨call.function, arguments⟩)
  | unbound {call : Call} {arguments : List String} :
      n.variant = .valueAcquisition ∨ n.variant = .assignment → n.body.call? = some call →
      p.allocation.slotOf? n.id = none → n.chosenSlot? = none →
      p.allocation.lowestFree? = none →
      Realizes n p (.call ⟨call.function, arguments⟩)

/-- What a call that is written can still cause: a slot without an argument to take it, a
result without a slot, or a new binding. -/
inductive Remarks (c : Context) (n : Node) : Event → Prop
  | unplaced {call : Call} {schema : Schema} {slot : Slot} : n.body.call? = some call →
      c.registry.lookup? call.function = some schema → schema.parameters = [] →
      c.options.substitute = true → Remarks c n (.reported (.substitutionSkipped n.id slot))
  | exhausted : n.chosenSlot? = none → Remarks c n (.reported (.slotsExhausted n.id))
  | bound {slot : Slot} : Remarks c n (.bound n.id slot)

lemma serialize_of_lookup? {c : Context} {call : Call} {schema : Schema}
    (h : c.registry.lookup? call.function = some schema) (a : Allocation) (id : NodeId) :
    c.serialize a id call =
      (some ⟨call.function, if c.options.substitute then
          substituteFirst (c.incomingSlots a id) (schema.arguments call.parameters)
        else schema.arguments call.parameters⟩,
        (if schema.parameters = [] ∧ c.options.substitute = true then c.incomingSlots a id
          else []).map (.substitutionSkipped id)) := by
  have hnil : schema.arguments call.parameters = [] ↔ schema.parameters = [] := by
    simp [Schema.arguments]
  simp only [serialize, h, hnil]
  by_cases hsub : c.options.substitute = true
  · by_cases hargs : schema.parameters = [] <;> simp [hsub, hargs]
  · simp [hsub]

lemma serialize_cases (c : Context) (a : Allocation) (id : NodeId) (call : Call) :
    (c.registry.lookup? call.function = none ∧
      c.serialize a id call = (none, [.unknownFunction id call.function])) ∨
    ∃ schema arguments slots, c.registry.lookup? call.function = some schema ∧
      c.serialize a id call =
        (some ⟨call.function, arguments⟩, slots.map (.substitutionSkipped id)) ∧
      (slots ≠ [] → schema.parameters = [] ∧ c.options.substitute = true) := by
  cases hs : c.registry.lookup? call.function with
  | none => exact .inl ⟨rfl, by simp only [serialize, hs]⟩
  | some schema =>
    refine .inr ⟨schema, _, _, rfl, serialize_of_lookup? hs a id, fun hslots => ?_⟩
    by_contra hnot
    exact hslots (if_neg hnot)

/-- Slots without an argument to take them are remarks of the node that calls. -/
lemma remarks_of_slots {c : Context} {n : Node} {call : Call} {schema : Schema}
    {slots : List Slot} (hcall : n.body.call? = some call)
    (hs : c.registry.lookup? call.function = some schema)
    (hslots : slots ≠ [] → schema.parameters = [] ∧ c.options.substitute = true) :
    ∀ event ∈ (slots.map (Diagnostic.substitutionSkipped n.id)).map .reported,
      c.Remarks n event := by
  intro event hevent
  obtain ⟨d, hd, rfl⟩ := List.mem_map.1 hevent
  obtain ⟨slot, hslot, rfl⟩ := List.mem_map.1 hd
  have hh := hslots (List.ne_nil_of_mem hslot)
  exact .unplaced hcall hs hh.1 hh.2

/-- The call of a node is written, or left out because its function is not registered. -/
lemma acquire_cases (c : Context) (n : Node) {call : Call} (p : Progress)
    (hcall : n.body.call? = some call) :
    (c.registry.lookup? call.function = none ∧
      c.acquire n call p = ⟨none, [.reported (.unknownFunction n.id call.function)], p⟩) ∨
    (c.registry.lookup? call.function).isSome ∧ ∃ arguments notes,
      (∀ event ∈ notes, c.Remarks n event) ∧
      (p.allocation.bind n.id n.chosenSlot? = none ∧
          c.acquire n call p = ⟨some (.call ⟨call.function, arguments⟩), notes, p⟩ ∨
        ∃ slot allocation, p.allocation.bind n.id n.chosenSlot? = some (slot, allocation) ∧
          c.acquire n call p = ⟨some (.assign slot ⟨call.function, arguments⟩), notes,
            ⟨allocation, p.calls, p.limitReported⟩⟩) := by
  unfold acquire
  rcases c.serialize_cases p.allocation n.id call with
    ⟨hs, he⟩ | ⟨schema, arguments, slots, hs, he, hslots⟩
  · exact .inl ⟨hs, by simp [he]⟩
  have hunplaced := remarks_of_slots hcall hs hslots
  refine .inr ⟨by simp [hs], arguments, ?_⟩
  cases hb : p.allocation.bind n.id n.chosenSlot? with
  | none =>
    refine ⟨_, ?_, .inl ⟨rfl, by rw [he]⟩⟩
    have hchosen := (Allocation.bind_eq_none_iff.1 hb).2.1
    intro event hevent
    rcases List.mem_append.1 hevent with hevent | hevent
    · exact hunplaced event hevent
    · rw [List.mem_singleton.1 hevent]
      exact .exhausted hchosen
  | some result =>
    refine ⟨_, ?_, .inr ⟨result.1, result.2, rfl, by rw [he]⟩⟩
    intro event hevent
    rcases List.mem_append.1 hevent with hevent | hevent
    · exact hunplaced event hevent
    · split_ifs at hevent
      · simp at hevent
      · rw [List.mem_singleton.1 hevent]
        exact .bound

/-- What one step of a sweep can cause by itself, without the walks of its branches. -/
inductive Causes (c : Context) (expandable : List NodeId) : Step → Event → Prop
  | notFound {id referencedBy : NodeId} :
      Causes c expandable (.absent id referencedBy) (.reported (.nodeNotFound id referencedBy))
  | visited {n : Node} : Causes c expandable (.present n) (.visited n.id n.variant)
  | omitted {n : Node} {d : Diagnostic} : c.omission? expandable n = some d →
      Causes c expandable (.present n) (.reported d)
  | remarked {n : Node} {event : Event} : c.Remarks n event →
      Causes c expandable (.present n) event
  | fannedOut {n : Node} {handle : Handle} {first : Edge} {ignored : List Edge} :
      n.variant = .conditional → IsBranch handle →
      c.graph.outgoing n.id handle = first :: ignored → ignored ≠ [] →
      c.options.warnOnFanOut = true →
      Causes c expandable (.present n) (.reported (.branchFanOut n.id handle ignored.length))
  | limited {n : Node} : n.variant = .conditional →
      Causes c expandable (.present n) (.reported (.limitReached n.id c.options.maxCalls))
  | branched {n : Node} {handle : Handle} {first : Edge} :
      n.variant = .conditional → IsBranch handle →
      (c.graph.outgoing n.id handle).head? = some first →
      Causes c expandable (.present n) (.branched n.id handle first.target)

/-- What one branch of a conditional comes to: it is not connected, it is followed, or
the limit keeps it from being followed. -/
inductive BranchOutcome (c : Context) (id : NodeId) (follow : Follow) (handle : Handle)
    (p : Progress) : Emission (Option (List Statement)) → Prop
  | unconnected : c.graph.outgoing id handle = [] →
      BranchOutcome c id follow handle p ⟨none, [], p⟩
  | followed {first : Edge} {ignored : List Edge} :
      c.graph.outgoing id handle = first :: ignored → p.calls < c.options.maxCalls →
      BranchOutcome c id follow handle p ⟨some (follow first.target p).value,
        c.fanOut id handle ignored ++
          .branched id handle first.target :: (follow first.target p).events,
        (follow first.target p).progress⟩
  | dropped {first : Edge} {ignored : List Edge} :
      c.graph.outgoing id handle = first :: ignored → c.options.maxCalls ≤ p.calls →
      p.limitReported = true →
      BranchOutcome c id follow handle p ⟨none, c.fanOut id handle ignored, p⟩
  | limited {first : Edge} {ignored : List Edge} :
      c.graph.outgoing id handle = first :: ignored → c.options.maxCalls ≤ p.calls →
      p.limitReported = false →
      BranchOutcome c id follow handle p ⟨none,
        c.fanOut id handle ignored ++ [.reported (.limitReached id c.options.maxCalls)],
        ⟨p.allocation, p.calls, true⟩⟩

theorem branch_outcome (c : Context) (id : NodeId) (follow : Follow) (handle : Handle)
    (p : Progress) : c.BranchOutcome id follow handle p (c.branch id follow handle p) := by
  unfold branch
  split
  · rename_i ho
    exact .unconnected ho
  · rename_i first ignored ho
    dsimp only
    split_ifs with hcalls hreported
    · exact .followed ho hcalls
    · exact .dropped ho (not_lt.1 hcalls) hreported
    · exact .limited ho (not_lt.1 hcalls) (Bool.eq_false_iff.2 hreported)

lemma branch_unconnected {c : Context} {id : NodeId} {handle : Handle}
    (ho : c.graph.outgoing id handle = []) (follow : Follow) (p : Progress) :
    c.branch id follow handle p = ⟨none, [], p⟩ := by
  simp only [branch, ho]

lemma branch_followed {c : Context} {id : NodeId} {handle : Handle} {first : Edge}
    {ignored : List Edge} {p : Progress} (ho : c.graph.outgoing id handle = first :: ignored)
    (hcalls : p.calls < c.options.maxCalls) (follow : Follow) :
    c.branch id follow handle p = ⟨some (follow first.target p).value,
      c.fanOut id handle ignored ++
        .branched id handle first.target :: (follow first.target p).events,
      (follow first.target p).progress⟩ := by
  simp only [branch, ho, if_pos hcalls]

lemma branch_unfollowed {c : Context} {id : NodeId} {handle : Handle} {first : Edge}
    {ignored : List Edge} {p : Progress} (ho : c.graph.outgoing id handle = first :: ignored)
    (hcalls : c.options.maxCalls ≤ p.calls) (follow : Follow) :
    c.branch id follow handle p =
      if p.limitReported then ⟨none, c.fanOut id handle ignored, p⟩
      else ⟨none, c.fanOut id handle ignored ++ [.reported (.limitReached id c.options.maxCalls)],
        ⟨p.allocation, p.calls, true⟩⟩ := by
  simp only [branch, ho, if_neg (not_lt.2 hcalls)]

/-- What the visit of a node comes to: a reason to leave it out, the branches of a
conditional, or a statement of its own. -/
inductive VisitOutcome (c : Context) (expandable : List NodeId)
    (follow : (id : NodeId) → id ∈ expandable → Follow) (n : Node) (p : Progress) :
    Emission (Option Statement) → Prop
  | omitted {d : Diagnostic} : c.omission? expandable n = some d →
      VisitOutcome c expandable follow n p ⟨none, [.reported d], p⟩
  | expanded {condition : Condition} (h : n.id ∈ expandable) :
      n.body = .conditional condition →
      VisitOutcome c expandable follow n p (c.expand n.id condition (follow n.id h) p)
  | written {s : Statement} {notes : List Event} {allocation : Allocation} :
      c.omission? expandable n = none → n.variant ≠ .conditional → Realizes n p s →
      (∀ event ∈ notes, c.Remarks n event) →
      VisitOutcome c expandable follow n p
        ⟨some s, notes, ⟨allocation, p.calls, p.limitReported⟩⟩

section Visit

variable {c : Context} {expandable : List NodeId}
  {follow : (id : NodeId) → id ∈ expandable → Follow} {n : Node} {p : Progress}

lemma visitOutcome_acquire {call : Call} (hcall : n.body.call? = some call)
    (hv : n.variant = .valueAcquisition ∨ n.variant = .assignment)
    (homit : c.omission? expandable n = if (c.registry.lookup? call.function).isSome then none
      else some (.unknownFunction n.id call.function)) :
    c.VisitOutcome expandable follow n p (c.acquire n call p) := by
  have hne : n.variant ≠ .conditional := by
    rcases hv with hv | hv <;> simp [hv]
  rcases c.acquire_cases n p hcall with
    ⟨hs, he⟩ | ⟨hs, arguments, notes, hnotes, ⟨hb, he⟩ | ⟨slot, allocation, hb, he⟩⟩
  · rw [he]
    exact .omitted (by simp [homit, hs])
  · obtain ⟨hslot, hchosen, hfree⟩ := Allocation.bind_eq_none_iff.1 hb
    rw [he]
    exact .written (by simp [homit, hs]) hne (.unbound hv hcall hslot hchosen hfree) hnotes
  · rw [he]
    exact .written (by simp [homit, hs]) hne (.bound hv hcall) hnotes

lemma visitOutcome_consequence {call : Call} (hbody : n.body = .consequence call) :
    c.VisitOutcome expandable follow n p
      ⟨(c.serialize p.allocation n.id call).1.map .call,
        (c.serialize p.allocation n.id call).2.map .reported, p⟩ := by
  have hcall : n.body.call? = some call := by simp [hbody, Body.call?]
  rcases c.serialize_cases p.allocation n.id call with
    ⟨hs, he⟩ | ⟨schema, arguments, slots, hs, he, hslots⟩
  · rw [he]
    exact .omitted (by simp [omission?, hbody, Body.call?, hs])
  · rw [he]
    refine .written (by simp [omission?, hbody, Body.call?, hs])
      (by simp [Node.variant, hbody, Body.variant]) (.consequence hbody) ?_
    exact remarks_of_slots hcall hs hslots

theorem visit_outcome (c : Context) (expandable : List NodeId)
    (follow : (id : NodeId) → id ∈ expandable → Follow) (n : Node) (p : Progress) :
    c.VisitOutcome expandable follow n p (c.visit expandable follow n p) := by
  unfold visit
  split
  · rename_i call hbody
    exact .omitted (by simp [omission?, hbody])
  · rename_i call hbody
    exact visitOutcome_acquire (by simp [hbody, Body.call?])
      (by simp [Node.variant, hbody, Body.variant]) (by simp [omission?, hbody, Body.call?])
  · rename_i call hbody
    exact visitOutcome_consequence hbody
  · rename_i condition hbody
    split_ifs with hmem
    · exact .expanded hmem hbody
    · exact .omitted (by simp [omission?, hbody, hmem])
  · rename_i condition hbody
    exact .written (by simp [omission?, hbody, Body.call?])
      (by simp [Node.variant, hbody, Body.variant]) (.continueIf hbody) (by simp)
  · rename_i slot hbody
    exact .omitted (by simp [omission?, hbody])
  · rename_i slot embedded hbody
    exact visitOutcome_acquire (by simp [hbody, Body.call?])
      (by simp [Node.variant, hbody, Body.variant]) (by simp [omission?, hbody, Body.call?])

/-- An event of one branch is caused by the conditional or belongs to the walk behind the
first edge. -/
lemma mem_branch {follow : Follow} {handle : Handle} {event : Event}
    (hv : n.variant = .conditional) (hb : IsBranch handle)
    (h : event ∈ (c.branch n.id follow handle p).events) :
    c.Causes expandable (.present n) event ∨
      ∃ first, (c.graph.outgoing n.id handle).head? = some first ∧
        event ∈ (follow first.target p).events := by
  have hfan : ∀ {first : Edge} {ignored : List Edge},
      c.graph.outgoing n.id handle = first :: ignored →
      event ∈ c.fanOut n.id handle ignored → c.Causes expandable (.present n) event := by
    intro first ignored ho hmem
    unfold fanOut at hmem
    split_ifs at hmem with hw
    · rw [List.mem_singleton.1 hmem]
      exact .fannedOut hv hb ho hw.2 hw.1
    · simp at hmem
  have hout := c.branch_outcome n.id follow handle p
  generalize c.branch n.id follow handle p = out at h hout
  cases hout with
  | unconnected ho => simp at h
  | followed ho hcalls =>
    rcases List.mem_append.1 h with h | h
    · exact .inl (hfan ho h)
    · rcases List.mem_cons.1 h with rfl | h
      · exact .inl (.branched hv hb (by rw [ho]; rfl))
      · exact .inr ⟨_, by rw [ho]; rfl, h⟩
  | dropped ho hcalls hr => exact .inl (hfan ho h)
  | limited ho hcalls hr =>
    rcases List.mem_append.1 h with h | h
    · exact .inl (hfan ho h)
    · rw [List.mem_singleton.1 h]
      exact .inl (.limited hv)

/-- An event of a visit is caused by the node or belongs to the walk of a branch. -/
lemma mem_visit {event : Event} (h : event ∈ (c.visit expandable follow n p).events) :
    c.Causes expandable (.present n) event ∨
      n.variant = .conditional ∧ ∃ hmem handle first q, IsBranch handle ∧
        (c.graph.outgoing n.id handle).head? = some first ∧
        event ∈ (follow n.id hmem first.target q).events := by
  have hout := c.visit_outcome expandable follow n p
  generalize c.visit expandable follow n p = out at h hout
  cases hout with
  | omitted ho =>
    rw [List.mem_singleton.1 h]
    exact .inl (.omitted ho)
  | written ho hv hr hnotes => exact .inl (.remarked (hnotes event h))
  | expanded hmem hbody =>
    have hv : n.variant = .conditional := Node.variant_eq_conditional.2 ⟨_, hbody⟩
    rcases List.mem_append.1 h with h | h
    · rcases mem_branch hv (.inl rfl) h with hh | ⟨first, hf, hh⟩
      · exact .inl hh
      · exact .inr ⟨hv, hmem, _, first, _, .inl rfl, hf, hh⟩
    · rcases mem_branch hv (.inr rfl) h with hh | ⟨first, hf, hh⟩
      · exact .inl hh
      · exact .inr ⟨hv, hmem, _, first, _, .inr rfl, hf, hh⟩

/-- An event of the steps of a sweep comes from one of them. -/
lemma mem_perform {steps : List Step} {event : Event}
    (h : event ∈ (c.perform expandable follow steps p).events) :
    ∃ s ∈ steps, c.Causes expandable s event ∨
      ∃ n, s = .present n ∧ n.variant = .conditional ∧ ∃ hmem handle first q,
        IsBranch handle ∧ (c.graph.outgoing n.id handle).head? = some first ∧
        event ∈ (follow n.id hmem first.target q).events := by
  induction steps generalizing p with
  | nil => simp [perform] at h
  | cons s rest ih =>
    cases s with
    | absent id referencedBy =>
      rcases List.mem_cons.1 h with rfl | h
      · exact ⟨_, List.mem_cons_self, .inl .notFound⟩
      · obtain ⟨s, hs, hh⟩ := ih h
        exact ⟨s, List.mem_cons_of_mem _ hs, hh⟩
    | present n =>
      rcases List.mem_append.1 h with h | h
      · rcases List.mem_cons.1 h with rfl | h
        · exact ⟨_, List.mem_cons_self, .inl .visited⟩
        · exact ⟨_, List.mem_cons_self, (mem_visit h).imp_right fun hh => ⟨n, rfl, hh⟩⟩
      · obtain ⟨s, hs, hh⟩ := ih h
        exact ⟨s, List.mem_cons_of_mem _ hs, hh⟩

end Visit

/-- How a walk follows the branches of a conditional: by walks that may not expand it. -/
def nested (c : Context) (expandable : List NodeId) (id : NodeId) (_ : id ∈ expandable) :
    Follow :=
  fun target p => c.walk (without expandable id) target id p

/-- A walk is the sweep from its start, step by step. -/
lemma walk_eq (c : Context) (expandable : List NodeId) (start referencedBy : NodeId)
    (p : Progress) :
    c.walk expandable start referencedBy p =
      let steps := c.graph.sweep start referencedBy
      let walked := c.perform expandable (c.nested expandable) steps
        ⟨p.allocation, p.calls + 1, p.limitReported⟩
      ⟨walked.value, .called ⟨start, steps.filterMap Step.visitedId?⟩ :: walked.events,
        walked.progress⟩ := by
  rw [walk]
  rfl

/-- Induction over walks: those of the branches may expand fewer conditionals. -/
theorem walk_induction {P : List NodeId → Prop}
    (step : ∀ expandable, (∀ id ∈ expandable, P (without expandable id)) → P expandable)
    (expandable : List NodeId) : P expandable := by
  induction hlen : expandable.length using Nat.strong_induction_on generalizing expandable with
  | _ k ih =>
    exact step expandable fun id hid => ih _ (hlen ▸ length_without_lt hid) _ rfl

/-- What can happen in a walk from an id: its own call, what the steps of its sweep
cause, and what happens in the walks of the branches. -/
inductive Happens (c : Context) : List NodeId → NodeId → Event → Prop
  | called {expandable : List NodeId} {start referencedBy : NodeId} :
      Happens c expandable start
        (.called ⟨start, (c.graph.sweep start referencedBy).filterMap Step.visitedId?⟩)
  | caused {expandable : List NodeId} {start referencedBy : NodeId} {s : Step} {event : Event} :
      s ∈ c.graph.sweep start referencedBy → Causes c expandable s event →
      Happens c expandable start event
  | nested {expandable : List NodeId} {start referencedBy : NodeId} {n : Node} {handle : Handle}
      {first : Edge} {event : Event} :
      .present n ∈ c.graph.sweep start referencedBy → n.variant = .conditional →
      n.id ∈ expandable → IsBranch handle →
      (c.graph.outgoing n.id handle).head? = some first →
      Happens c (without expandable n.id) first.target event →
      Happens c expandable start event

/-- Nothing else happens in a walk. -/
theorem happens_of_mem_walk {c : Context} {expandable : List NodeId}
    {start referencedBy : NodeId} {p : Progress} {event : Event}
    (h : event ∈ (c.walk expandable start referencedBy p).events) :
    c.Happens expandable start event := by
  induction expandable using walk_induction generalizing start referencedBy p with
  | step expandable ih =>
    rw [walk_eq] at h
    rcases List.mem_cons.1 h with rfl | h
    · exact .called
    · obtain ⟨s, hs, hcause | ⟨n, rfl, hv, hmem, handle, first, q, hb, hf, hh⟩⟩ := mem_perform h
      · exact .caused hs hcause
      · exact .nested hs hv hmem hb hf (ih n.id hmem hh)

/-- Every event of the streams happens in the walk of one of their edges. -/
lemma happens_of_mem_streams {c : Context} {entry : NodeId} {edges : List Edge} {p : Progress}
    {event : Event} (h : event ∈ (c.streams entry edges p).events) :
    ∃ e ∈ edges, event = .streamed e.target ∨
      c.Happens c.graph.conditionalIds e.target event := by
  induction edges generalizing p with
  | nil => simp [streams] at h
  | cons e rest ih =>
    rcases List.mem_append.1 h with h | h
    · rcases List.mem_cons.1 h with rfl | h
      · exact ⟨e, List.mem_cons_self, .inl rfl⟩
      · exact ⟨e, List.mem_cons_self, .inr (happens_of_mem_walk h)⟩
    · obtain ⟨f, hf, hh⟩ := ih h
      exact ⟨f, List.mem_cons_of_mem _ hf, hh⟩

/-- A graph with an entry point is compiled. -/
lemma run_eq {c : Context} {entry : NodeId} {call : Call} {others : List (NodeId × Call)}
    (h : c.graph.timings = (entry, call) :: others) :
    c.run = .ok ⟨⟨(c.header c.start.allocation entry call).1,
        (c.streams entry (c.graph.outgoing entry .output) c.start).value⟩,
      others.map (fun other => .reported (.additionalEntryPoint other.1)) ++
        (c.header c.start.allocation entry call).2.map .reported ++
        (c.streams entry (c.graph.outgoing entry .output) c.start).events,
      (c.streams entry (c.graph.outgoing entry .output) c.start).progress⟩ := by
  unfold run
  rw [h]

lemma header_cases (c : Context) (a : Allocation) (entry : NodeId) (call : Call) :
    (c.registry.lookup? call.function = none ∧
      (c.header a entry call).2 = [.unknownFunction entry call.function]) ∨
    (c.registry.lookup? call.function).isSome ∧
      ∃ slots : List Slot, (c.header a entry call).2 = slots.map (.substitutionSkipped entry) := by
  unfold header
  rcases c.serialize_cases a entry call with ⟨hs, he⟩ | ⟨schema, arguments, slots, hs, he, -⟩
  · exact .inl ⟨hs, by rw [hs]⟩
  · refine .inr ⟨by simp [hs], ?_⟩
    rw [hs, he]
    dsimp only
    split_ifs
    · exact ⟨[], rfl⟩
    · exact ⟨slots, rfl⟩

/-- A header has no problems but an unknown function. -/
lemma header_of_lookup? {c : Context} {a : Allocation} {entry : NodeId} {call : Call}
    {schema : Schema} (h : c.registry.lookup? call.function = some schema) :
    (c.header a entry call).2 = [] := by
  unfold header
  rw [h]
  dsimp only
  split_ifs with hparameters
  · rfl
  · rcases c.serialize_cases a entry call with ⟨hs, -⟩ | ⟨schema', arguments, slots, hs, he, hslots⟩
    · simp [h] at hs
    · obtain rfl := Option.some.inj (h.symm.trans hs)
      have hnone : slots = [] := by
        by_contra hne
        exact hparameters (hslots hne).1
      simp [he, hnone]

/-- Before the first walk only other triggers and problems with the header are reported. -/
lemma mem_preamble {c : Context} {a : Allocation} {entry : NodeId} {call : Call}
    {others : List (NodeId × Call)} {event : Event}
    (h : event ∈ others.map (fun other => .reported (.additionalEntryPoint other.1)) ++
      (c.header a entry call).2.map .reported) :
    (∃ id, event = .reported (.additionalEntryPoint id)) ∨
      event = .reported (.unknownFunction entry call.function) ∨
      ∃ slot, event = .reported (.substitutionSkipped entry slot) := by
  rcases List.mem_append.1 h with h | h
  · obtain ⟨other, -, rfl⟩ := List.mem_map.1 h
    exact .inl ⟨_, rfl⟩
  obtain ⟨d, hd, rfl⟩ := List.mem_map.1 h
  rcases c.header_cases a entry call with ⟨-, he⟩ | ⟨-, slots, he⟩
  · rw [he] at hd
    exact .inr (.inl (by rw [List.mem_singleton.1 hd]))
  · rw [he] at hd
    obtain ⟨slot, -, rfl⟩ := List.mem_map.1 hd
    exact .inr (.inr ⟨slot, rfl⟩)

end Context

namespace Graph

/-- A compilation that succeeds has an entry point. -/
lemma timings_of_compile {g : Graph} {registry : Registry} {options : Options}
    {result : Compilation} (h : g.compile registry options = .ok result) :
    ∃ entry call others, g.timings = (entry, call) :: others := by
  cases ht : g.timings with
  | nil => simp [compile, Context.run, ht, Except.map] at h
  | cons first others => exact ⟨first.1, first.2, others, rfl⟩

/-- The result of a compilation is what its run shows. -/
lemma run_of_compile {g : Graph} {registry : Registry} {options : Options}
    {result : Compilation} (h : g.compile registry options = .ok result) :
    ∃ out, Context.run ⟨g, registry, options⟩ = .ok out ∧ .ofEmission out = result := by
  unfold compile at h
  cases hrun : Context.run ⟨g, registry, options⟩ with
  | error e => simp [hrun, Except.map] at h
  | ok out => exact ⟨out, rfl, by simpa [hrun, Except.map] using h⟩

end Graph

end ScriptGraph
