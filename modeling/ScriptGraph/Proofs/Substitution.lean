import ScriptGraph.Proofs.ScriptLines
import ScriptGraph.Proofs.SlotAllocation

/-!
# What substitution changes

Two compilations that differ only in whether slots are substituted run in step: they visit
the same nodes in the same state and bind the same slots. Their scripts differ in first
arguments only, and a slot that stands there was assigned on an earlier line, since a node
is bound exactly when its assignment is written.
-/
namespace ScriptGraph

open Script (Statement Invocation)
open Script.Statement (outlineList outlineBranch linesList linesBranch)

/-- A slot found no argument to take its place. -/
def Diagnostic.isSubstitutionSkipped : Diagnostic → Bool
  | substitutionSkipped _ _ => true
  | _ => false

namespace Event

/-- The event has nothing to do with substitution. -/
def isKept : Event → Bool
  | reported d => !d.isSubstitutionSkipped
  | _ => true

lemma diagnostics_filter_isKept (events : List Event) :
    diagnostics (events.filter isKept) =
      (diagnostics events).filter fun d => !d.isSubstitutionSkipped :=
  diagnostics_filter (fun _ => rfl) events

lemma trace_filter_isKept (events : List Event) : trace (events.filter isKept) = trace events :=
  trace_filter (fun _ => rfl) events

end Event

namespace Script

/-- The second list of arguments is the first one, or has one of the slots in place of its
first argument. -/
def Substituted (slots : List Slot) (plain filled : List String) : Prop :=
  filled = plain ∨
    ∃ slot ∈ slots, ∃ first rest, plain = first :: rest ∧ filled = slot.text :: rest

/-- The slots that lines assign. -/
def assignedSlots (lines : List Statement) : List Slot := lines.filterMap Statement.assigned?

/-- The lines of two scripts, one of them with slots substituted. On every line these are
among the given slots and those that earlier lines assign. -/
inductive FilledLines : List Slot → List Statement → List Statement → Prop
  | nil {slots : List Slot} : FilledLines slots [] []
  | cons {slots : List Slot} {a b : Statement} {xs ys : List Statement} :
      (∀ i j, a.invocation? = some i → b.invocation? = some j →
        Substituted slots i.arguments j.arguments) →
      FilledLines (slots ++ b.assigned?.toList) xs ys → FilledLines slots (a :: xs) (b :: ys)

@[simp] theorem assignedSlots_append (xs ys : List Statement) :
    assignedSlots (xs ++ ys) = assignedSlots xs ++ assignedSlots ys :=
  List.filterMap_append

lemma assignedSlots_cons (s : Statement) (rest : List Statement) :
    assignedSlots (s :: rest) = s.assigned?.toList ++ assignedSlots rest := by
  cases hs : s.assigned? <;> simp [assignedSlots, hs]

namespace FilledLines

variable {slots slots' : List Slot} {xs ys xs' ys' : List Statement}

/-- A script agrees with itself. -/
lemma refl (slots : List Slot) (xs : List Statement) : FilledLines slots xs xs := by
  induction xs generalizing slots with
  | nil => exact .nil
  | cons s rest ih =>
    refine .cons (fun i j hi hj => .inl ?_) (ih _)
    rw [Option.some.inj (hi.symm.trans hj)]

lemma append (h : FilledLines slots xs ys)
    (h' : FilledLines (slots ++ assignedSlots ys) xs' ys') :
    FilledLines slots (xs ++ xs') (ys ++ ys') := by
  induction h with
  | nil => simpa [assignedSlots] using h'
  | cons hline _ ih =>
    rw [assignedSlots_cons, ← List.append_assoc] at h'
    exact .cons hline (ih h')

/-- The line at a place may use what the lines before it assign. -/
lemma getElem? (h : FilledLines slots xs ys) {k : ℕ} {a b : Statement} {i j : Invocation}
    (ha : xs[k]? = some a) (hb : ys[k]? = some b) (hi : a.invocation? = some i)
    (hj : b.invocation? = some j) :
    Substituted (slots ++ assignedSlots (ys.take k)) i.arguments j.arguments := by
  induction h generalizing k with
  | nil => simp at ha
  | @cons slots a' b' xs ys hline _ ih =>
    cases k with
    | zero =>
      obtain rfl : a' = a := by simpa using ha
      obtain rfl : b' = b := by simpa using hb
      simpa [assignedSlots] using hline i j hi hj
    | succ k =>
      have hrest := ih (by simpa using ha) (by simpa using hb)
      rwa [List.take_succ_cons, assignedSlots_cons, ← List.append_assoc]

end FilledLines

lemma exists_assign_of_mem {lines : List Statement} {k : ℕ} {slot : Slot}
    (h : slot ∈ assignedSlots (lines.take k)) :
    ∃ l < k, ∃ invocation, lines[l]? = some (.assign slot invocation) := by
  obtain ⟨s, hs, hslot⟩ := List.mem_filterMap.1 h
  obtain ⟨l, hl, rfl⟩ := List.mem_take_iff_getElem.1 hs
  have hlk : l < k ∧ l < lines.length := lt_min_iff.1 hl
  cases hline : lines[l] with
  | assign slot' invocation =>
    rw [hline] at hslot
    obtain rfl : slot' = slot := by simpa [Statement.assigned?] using hslot
    exact ⟨l, hlk.1, invocation, by rw [List.getElem?_eq_getElem hlk.2, hline]⟩
  | _ => simp [hline, Statement.assigned?] at hslot

end Script

open Script (Substituted FilledLines assignedSlots)

/-- What comes of one node, as a stretch of a run. -/
def Emission.listed (x : Emission (Option Statement)) : Emission (List Statement) :=
  ⟨x.value.toList, x.events, x.progress⟩

namespace Context

/-- The same compilation with or without substitution. -/
def withSubstitution (c : Context) (substitute : Bool) : Context :=
  ⟨c.graph, c.registry, ⟨c.options.warnOnFanOut, substitute, c.options.maxCalls⟩⟩

@[simp] theorem start_withSubstitution (c : Context) (substitute : Bool) :
    (c.withSubstitution substitute).start = c.start := rfl

/-- Two stretches from one state, the second one with substitution. They agree in all but
first arguments, and whatever is bound at the end was bound before or is assigned. -/
structure Agrees (p : Progress) (x x' : Emission (List Statement)) : Prop where
  progress : x'.progress = x.progress
  events : x'.events.filter Event.isKept = x.events.filter Event.isKept
  outline : outlineList x'.value = outlineList x.value
  assigned : ∀ b ∈ x'.progress.allocation.bindings,
    b ∈ p.allocation.bindings ∨ b.2 ∈ assignedSlots (linesList x'.value)
  filled : ∀ slots, (∀ b ∈ p.allocation.bindings, b.2 ∈ slots) →
    FilledLines slots (linesList x.value) (linesList x'.value)

section Agrees

variable {c : Context} {p : Progress}

lemma agrees_self {x : Emission (List Statement)} (h : x.progress.allocation = p.allocation) :
    Agrees p x x where
  progress := rfl
  events := rfl
  outline := rfl
  assigned _ hb := .inl (h ▸ hb)
  filled slots _ := .refl slots _

lemma Agrees.append {x x' y y' : Emission (List Statement)} (hx : Agrees p x x')
    (hy : Agrees x.progress y y') : Agrees p (x.append y) (x'.append y') where
  progress := hy.progress
  events := by simp only [Emission.append, List.filter_append, hx.events, hy.events]
  outline := by
    simp only [Emission.append, Script.Statement.outlineList_append, hx.outline, hy.outline]
  assigned := by
    intro b hb
    simp only [Emission.append, Script.Statement.linesList_append, Script.assignedSlots_append,
      List.mem_append]
    rcases hy.assigned b hb with hb | hb
    · rw [← hx.progress] at hb
      exact (hx.assigned b hb).imp_right .inl
    · exact .inr (.inr hb)
  filled := by
    intro slots hslots
    simp only [Emission.append, Script.Statement.linesList_append]
    refine (hx.filled slots hslots).append (hy.filled _ fun b hb => ?_)
    rw [← hx.progress] at hb
    rcases hx.assigned b hb with hb | hb
    · exact List.mem_append_left _ (hslots b hb)
    · exact List.mem_append_right _ hb

/-- An event in front changes nothing, nor do the numbers of the calls. -/
lemma Agrees.cons {x x' : Emission (List Statement)} {q : Progress} (h : Agrees q x x')
    (hq : q.allocation = p.allocation) (event : Event) :
    Agrees p ⟨x.value, event :: x.events, x.progress⟩
      ⟨x'.value, event :: x'.events, x'.progress⟩ where
  progress := h.progress
  events := by simp only [List.filter_cons, h.events]
  outline := h.outline
  assigned := by rw [← hq]; exact h.assigned
  filled := by rw [← hq]; exact h.filled

/-- A conditional is a line of its own before those of its branches. -/
lemma Agrees.conditional {t t' : List Statement} {f f' : Option (List Statement)}
    {xs xs' : List Event} {q q' : Progress}
    (h : Agrees p ⟨t ++ f.getD [], xs, q⟩ ⟨t' ++ f'.getD [], xs', q'⟩)
    (ht : outlineList t' = outlineList t) (hf : outlineBranch f' = outlineBranch f)
    (condition : String) : Agrees p ⟨[.conditional condition t f], xs, q⟩
      ⟨[.conditional condition t' f'], xs', q'⟩ where
  progress := h.progress
  events := h.events
  outline := by simp [outlineList, Script.Statement.outline, ht, hf]
  assigned := by
    intro b hb
    refine (h.assigned b hb).imp_right fun hmem => ?_
    simpa [linesList, Script.Statement.lines, Script.assignedSlots_cons,
      Script.Statement.linesList_getD, Script.Statement.assigned?] using hmem
  filled := by
    intro slots hslots
    have hrest := h.filled slots hslots
    simp only [Script.Statement.linesList_append, Script.Statement.linesList_getD] at hrest
    simp only [linesList, Script.Statement.lines, List.append_nil]
    exact .cons (by simp [Script.Statement.invocation?])
      (by simpa [Script.Statement.assigned?] using hrest)

lemma incomingSlots_subset (c : Context) (a : Allocation) (id : NodeId) :
    c.incomingSlots a id ⊆ a.bindings.map Prod.snd := by
  intro slot hslot
  obtain ⟨e, -, hheld⟩ := List.mem_filterMap.1 hslot
  exact Allocation.slotOf?_mem hheld

lemma map_substituteFirst (slots : List Slot) (arguments : List String) :
    (substituteFirst slots arguments).map (fun _ => "") = arguments.map fun _ => "" := by
  cases arguments <;> simp [substituteFirst]

lemma substituted_substituteFirst (slots : List Slot) (arguments : List String) :
    Substituted slots arguments (substituteFirst slots arguments) := by
  cases arguments with
  | nil => exact .inl rfl
  | cons first rest =>
    cases hlast : slots.getLast? with
    | none => exact .inl (by simp [substituteFirst, hlast])
    | some slot =>
      exact .inr ⟨slot, List.mem_of_getLast? hlast, first, rest, rfl,
        by simp [substituteFirst, hlast]⟩

section Serialize

variable {a : Allocation} {id : NodeId} {call : Call} {schema : Schema}

lemma serialize_plain (hs : c.registry.lookup? call.function = some schema) :
    (c.withSubstitution false).serialize a id call =
      (some ⟨call.function, schema.arguments call.parameters⟩, []) := by
  simp [serialize, withSubstitution, hs]

lemma serialize_filled (hs : c.registry.lookup? call.function = some schema) :
    (c.withSubstitution true).serialize a id call =
      (some ⟨call.function,
          substituteFirst (c.incomingSlots a id) (schema.arguments call.parameters)⟩,
        if schema.arguments call.parameters = [] then
          (c.incomingSlots a id).map (.substitutionSkipped id) else []) := by
  simp only [serialize, withSubstitution, hs]
  rfl

lemma serialize_unregistered (hs : c.registry.lookup? call.function = none) (substitute : Bool) :
    (c.withSubstitution substitute).serialize a id call =
      (none, [.unknownFunction id call.function]) := by
  simp [serialize, withSubstitution, hs]

/-- A call is written with the same outline, whether slots are substituted or not, and
nothing but missing arguments is reported besides. -/
lemma serialize_substitution (c : Context) (a : Allocation) (id : NodeId) (call : Call) :
    (∀ substitute, (c.withSubstitution substitute).serialize a id call =
      (none, [.unknownFunction id call.function])) ∨
    ∃ plain filled problems,
      (c.withSubstitution false).serialize a id call = (some plain, []) ∧
      (c.withSubstitution true).serialize a id call = (some filled, problems) ∧
      (∀ d ∈ problems, d.isSubstitutionSkipped = true) ∧
      filled.outline = plain.outline ∧
      ∀ slots, a.bindings.map Prod.snd ⊆ slots →
        Substituted slots plain.arguments filled.arguments := by
  cases hs : c.registry.lookup? call.function with
  | none => exact .inl (serialize_unregistered hs)
  | some schema =>
    refine .inr ⟨_, _, _, serialize_plain hs, serialize_filled hs, fun d hd => ?_, ?_,
      fun slots hslots => ?_⟩
    · split_ifs at hd
      · obtain ⟨slot, -, rfl⟩ := List.mem_map.1 hd
        rfl
      · simp at hd
    · simp only [Invocation.outline, map_substituteFirst]
    · rcases substituted_substituteFirst (c.incomingSlots a id)
        (schema.arguments call.parameters) with he | ⟨slot, hslot, hrest⟩
      · exact .inl he
      · exact .inr ⟨slot, hslots (c.incomingSlots_subset a id hslot), hrest⟩

/-- While nothing is bound, substitution makes no difference. -/
lemma serialize_unbound (ha : a.bindings = []) :
    (c.withSubstitution true).serialize a id call =
      (c.withSubstitution false).serialize a id call := by
  cases hs : c.registry.lookup? call.function with
  | none => rw [serialize_unregistered hs, serialize_unregistered hs]
  | some schema =>
    have hslots : c.incomingSlots a id = [] :=
      List.eq_nil_of_subset_nil (by simpa [ha] using c.incomingSlots_subset a id)
    rw [serialize_plain hs, serialize_filled hs, hslots]
    cases schema.arguments call.parameters <;> simp [substituteFirst]

end Serialize

/-- Reports of slots without an argument are what substitution may add. -/
lemma filter_skipped {problems : List Diagnostic}
    (h : ∀ d ∈ problems, d.isSubstitutionSkipped = true) :
    (problems.map Event.reported).filter Event.isKept = [] := by
  simpa [List.filter_eq_nil_iff, Event.isKept] using h

/-- Two lines with one outline, one of them with a bound slot as its first argument, agree.
If they assign, what is bound anew is their slot. -/
lemma agrees_line {a b : Statement} {i j : Invocation} {xs ys : List Event} {q : Progress}
    (ha : a.lines = [a]) (hb : b.lines = [b]) (hi : a.invocation? = some i)
    (hj : b.invocation? = some j) (houtline : b.outline = a.outline)
    (hevents : ys.filter Event.isKept = xs.filter Event.isKept)
    (hsubstituted : ∀ slots, p.allocation.bindings.map Prod.snd ⊆ slots →
      Substituted slots i.arguments j.arguments)
    (hbindings : ∀ binding ∈ q.allocation.bindings,
      binding ∈ p.allocation.bindings ∨ b.assigned? = some binding.2) :
    Agrees p ⟨[a], xs, q⟩ ⟨[b], ys, q⟩ where
  progress := rfl
  events := hevents
  outline := by simp [outlineList, houtline]
  assigned := by
    intro binding hmem
    refine (hbindings binding hmem).imp_right fun hassigned => ?_
    simp [linesList, hb, assignedSlots, hassigned]
  filled := by
    intro slots hslots
    simp only [linesList, ha, hb, List.append_nil]
    refine .cons (fun i' j' hi' hj' => ?_) .nil
    obtain rfl : i = i' := Option.some.inj (hi.symm.trans hi')
    obtain rfl : j = j' := Option.some.inj (hj.symm.trans hj')
    refine hsubstituted slots fun slot hslot => ?_
    obtain ⟨binding, hmem, rfl⟩ := List.mem_map.1 hslot
    exact hslots binding hmem

lemma agrees_consequence (c : Context) (n : Node) (call : Call) (p : Progress) :
    let plain := (c.withSubstitution false).serialize p.allocation n.id call
    let filled := (c.withSubstitution true).serialize p.allocation n.id call
    Agrees p ⟨(plain.1.map Statement.call).toList, plain.2.map .reported, p⟩
      ⟨(filled.1.map Statement.call).toList, filled.2.map .reported, p⟩ := by
  intro plain filled
  rcases c.serialize_substitution p.allocation n.id call with
    hnone | ⟨i, j, problems, hp, hf, hproblems, houtline, hsubstituted⟩
  · simp only [plain, filled, hnone]
    exact agrees_self rfl
  · simp only [plain, filled, hp, hf]
    exact agrees_line rfl rfl rfl rfl (by simp [Statement.outline, houtline])
      (by rw [filter_skipped hproblems]; rfl) hsubstituted (fun _ hb => .inl hb)

/-- The same value is acquired, in the same slot. -/
lemma agrees_acquire (c : Context) (n : Node) (call : Call) (p : Progress) :
    Agrees p ((c.withSubstitution false).acquire n call p).listed
      ((c.withSubstitution true).acquire n call p).listed := by
  rcases c.serialize_substitution p.allocation n.id call with
    hnone | ⟨i, j, problems, hp, hf, hproblems, houtline, hsubstituted⟩
  · simp only [acquire, hnone]
    exact agrees_self rfl
  simp only [acquire, hp, hf]
  cases hb : p.allocation.bind n.id n.chosenSlot? with
  | none =>
    refine agrees_line rfl rfl rfl rfl (by simp [Statement.outline, houtline]) ?_
      hsubstituted (fun _ hb => .inl hb)
    rw [List.filter_append, filter_skipped hproblems]
    rfl
  | some result =>
    obtain ⟨slot, a'⟩ := result
    refine agrees_line rfl rfl rfl rfl (by simp [Statement.outline, houtline]) ?_ hsubstituted ?_
    · rw [List.filter_append, filter_skipped hproblems]
      rfl
    · intro binding hmem
      rcases Allocation.bind_cases hb with ⟨-, rfl⟩ | ⟨-, rfl, -⟩
      · exact .inl hmem
      · rcases List.mem_append.1 hmem with hmem | hmem
        · exact .inl hmem
        · obtain rfl := List.mem_singleton.1 hmem
          exact .inr rfl

/-- A branch is followed with substitution if it is without, since both runs have made as
many calls. -/
lemma agrees_branch (c : Context) (id : NodeId) {follow follow' : Follow} (handle : Handle)
    (hfollow : ∀ target q, Agrees q (follow target q) (follow' target q)) (p : Progress) :
    let plain := c.branch id follow handle p
    let filled := c.branch id follow' handle p
    Agrees p ⟨plain.value.getD [], plain.events, plain.progress⟩
        ⟨filled.value.getD [], filled.events, filled.progress⟩ ∧
      outlineBranch filled.value = outlineBranch plain.value := by
  intro plain filled
  simp only [plain, filled, branch]
  cases c.graph.outgoing id handle with
  | nil => exact ⟨agrees_self rfl, rfl⟩
  | cons first ignored =>
    by_cases hcalls : p.calls < c.options.maxCalls
    · simp only [if_pos hcalls]
      have hfan : Agrees p ⟨[], c.fanOut id handle ignored ++ [.branched id handle first.target], p⟩
          ⟨[], c.fanOut id handle ignored ++ [.branched id handle first.target], p⟩ :=
        agrees_self rfl
      have hwalk := hfollow first.target p
      have hboth := hfan.append hwalk
      exact ⟨by simpa [Emission.append] using hboth, by simp [outlineBranch, hwalk.outline]⟩
    · by_cases hreported : p.limitReported = true
      · simp only [if_neg hcalls, if_pos hreported]
        exact ⟨agrees_self rfl, trivial⟩
      · simp only [if_neg hcalls, if_neg hreported]
        exact ⟨agrees_self rfl, trivial⟩

lemma agrees_expand (c : Context) (id : NodeId) (condition : Condition) {follow follow' : Follow}
    (hfollow : ∀ target q, Agrees q (follow target q) (follow' target q)) (p : Progress) :
    Agrees p (c.expand id condition follow p).listed (c.expand id condition follow' p).listed := by
  obtain ⟨htrue, -⟩ := c.agrees_branch id .whenTrue hfollow p
  obtain ⟨hfalse, hbranch⟩ := c.agrees_branch id .whenFalse hfollow
    (c.branch id follow .whenTrue p).progress
  have hprogress : (c.branch id follow' .whenTrue p).progress =
      (c.branch id follow .whenTrue p).progress := htrue.progress
  have hboth := htrue.append hfalse
  simp only [Emission.listed, expand, hprogress]
  exact hboth.conditional htrue.outline hbranch condition.text

/-- Visits of one node from one state agree. -/
lemma agrees_visit (c : Context) {expandable : List NodeId}
    {follow follow' : (id : NodeId) → id ∈ expandable → Follow} (n : Node)
    (hfollow : ∀ id hmem target q, Agrees q (follow id hmem target q) (follow' id hmem target q))
    (p : Progress) :
    Agrees p ((c.withSubstitution false).visit expandable follow n p).listed
      ((c.withSubstitution true).visit expandable follow' n p).listed := by
  unfold visit
  split
  · exact agrees_self rfl
  · exact c.agrees_acquire n _ p
  · exact c.agrees_consequence n _ p
  · split_ifs with hmem
    · exact c.agrees_expand n.id _ (hfollow n.id hmem) p
    · exact agrees_self rfl
  · exact agrees_self rfl
  · exact agrees_self rfl
  · exact c.agrees_acquire n _ p

/-- The two runs go on in step from wherever they are in the same state. -/
lemma coupling_agrees (c : Context) :
    Coupling (c.withSubstitution false) (c.withSubstitution true)
      fun p x p' x' => p' = p → Agrees p x x' where
  graph_eq := rfl
  nothing := by
    rintro p _ rfl
    exact agrees_self rfl
  append := by
    intro p x y p' x' y' hx hy hp
    have hfirst := hx hp
    exact hfirst.append (hy hfirst.progress)
  absent := by
    rintro id referencedBy p _ rfl
    exact agrees_self rfl
  visit := by
    rintro expandable follow follow' n _ p - hfollow rfl
    have hvisit := c.agrees_visit n (fun id hmem target q => hfollow id hmem target q q rfl) p
    exact hvisit.cons rfl (.visited n.id n.variant)
  call := by
    rintro start visited _ x p x' - hx rfl
    exact Agrees.cons (p := p) (hx rfl) rfl (.called ⟨start, visited⟩)
  streamed := by
    rintro target p _ rfl
    exact agrees_self rfl

/-- No slot is held before the first walk, so the header takes none. -/
lemma header_substitution (c : Context) (entry : NodeId) (call : Call) :
    (c.withSubstitution true).header c.start.allocation entry call =
      (c.withSubstitution false).header c.start.allocation entry call := by
  have hserialize : (c.withSubstitution true).serialize c.start.allocation entry call =
      (c.withSubstitution false).serialize c.start.allocation entry call := serialize_unbound rfl
  unfold header
  rw [hserialize]
  rfl

end Agrees

/-- The two runs as a whole: the same header and final state, the same events but for
skipped substitutions, and scripts that agree line by line. -/
lemma run_substitution {c : Context} {entry : NodeId} {call : Call}
    {others : List (NodeId × Call)} (h : c.graph.timings = (entry, call) :: others) :
    ∃ plain filled, (c.withSubstitution false).run = .ok plain ∧
      (c.withSubstitution true).run = .ok filled ∧
      filled.value.header = plain.value.header ∧ filled.progress = plain.progress ∧
      filled.events.filter Event.isKept = plain.events.filter Event.isKept ∧
      outlineList filled.value.statements = outlineList plain.value.statements ∧
      FilledLines [] (linesList plain.value.statements) (linesList filled.value.statements) := by
  have hheader := c.header_substitution entry call
  have hstreams := c.coupling_agrees.streams entry (c.graph.outgoing entry .output)
    c.start c.start rfl
  refine ⟨_, _, run_eq (c := c.withSubstitution false) h, run_eq (c := c.withSubstitution true) h,
    congrArg Prod.fst hheader, hstreams.progress, ?_, hstreams.outline, ?_⟩
  · simp only [List.filter_append, start_withSubstitution, hheader]
    exact congrArg (_ ++ ·) hstreams.events
  · exact hstreams.filled [] (by simp [start, Allocation.ofGraph])

end Context

namespace Graph

/-- Substitution changes first arguments and nothing else. With and without it there are
the same header, trace and bindings, the same problems but for slots without an argument,
and scripts of one outline. Where the arguments of corresponding calls differ, the one
with substitution has the text of a slot that an earlier line of its script assigns in
place of the first argument. -/
theorem compile_substitution (g : Graph) (registry : Registry) (options : Options)
    (entry : NodeId) (call : Call) (others : List (NodeId × Call))
    (h : g.timings = (entry, call) :: others) :
    ∃ plain filled : Compilation,
      g.compile registry { options with substitute := false } = .ok plain ∧
      g.compile registry { options with substitute := true } = .ok filled ∧
      filled.script.header = plain.script.header ∧ filled.trace = plain.trace ∧
      filled.bindings = plain.bindings ∧
      (filled.diagnostics.filter fun d => !d.isSubstitutionSkipped) =
        (plain.diagnostics.filter fun d => !d.isSubstitutionSkipped) ∧
      outlineList filled.script.statements = outlineList plain.script.statements ∧
      ∀ (k : ℕ) (a b : Statement) (i j : Invocation),
        (linesList plain.script.statements)[k]? = some a →
        (linesList filled.script.statements)[k]? = some b →
        a.invocation? = some i → b.invocation? = some j → i.arguments ≠ j.arguments →
        ∃ (slot : Slot) (first : String) (rest : List String),
          i.arguments = first :: rest ∧ j.arguments = slot.text :: rest ∧
          ∃ l < k, ∃ invocation,
            (linesList filled.script.statements)[l]? = some (.assign slot invocation) := by
  obtain ⟨plain, filled, hplain, hfilled, hheader, hprogress, hevents, houtline, hlines⟩ :=
    Context.run_substitution (c := ⟨g, registry, options⟩) h
  refine ⟨.ofEmission plain, .ofEmission filled, congrArg (Except.map _) hplain,
    congrArg (Except.map _) hfilled, hheader, ?_, ?_, ?_, houtline, ?_⟩
  · have htrace := congrArg Event.trace hevents
    rwa [Event.trace_filter_isKept, Event.trace_filter_isKept] at htrace
  · exact congrArg (·.allocation.bindings) hprogress
  · have hdiagnostics := congrArg Event.diagnostics hevents
    rwa [Event.diagnostics_filter_isKept, Event.diagnostics_filter_isKept] at hdiagnostics
  · intro k a b i j ha hb hi hj hne
    rcases hlines.getElem? ha hb hi hj with he | ⟨slot, hslot, first, rest, hfirst, hrest⟩
    · exact absurd he.symm hne
    · exact ⟨slot, first, rest, hfirst, hrest, Script.exists_assign_of_mem hslot⟩

/-- A graph in which one value feeds a strike twice: right behind it in the true branch of
the conditional, and in the false branch, which comes later in the text. -/
def fed : Graph where
  nodes := [⟨"start", default, .timing ⟨"Begin", .empty⟩⟩, ⟨"check", default, .conditional {}⟩,
    ⟨"roll", default, .valueAcquisition ⟨"Roll", .empty⟩⟩,
    ⟨"strike", default, .consequence ⟨"Strike", .empty⟩⟩]
  edges := [⟨"start", .output, "check", .input⟩, ⟨"check", .whenTrue, "roll", .input⟩,
    ⟨"check", .whenFalse, "strike", .input⟩, ⟨"roll", .output, "strike", .input⟩]

/-- A registry with a function that yields a value and one that takes it. -/
def combat : Registry := dice.register ⟨"Strike", .consequence, ["power"]⟩

theorem compile_substitution_fed : fed.timings = [("start", ⟨"Begin", .empty⟩)] ∧
    ∃ plain filled : Compilation, fed.compile combat { substitute := false } = .ok plain ∧
      fed.compile combat { substitute := true } = .ok filled ∧
      filled.bindings = plain.bindings ∧
      outlineList filled.script.statements = outlineList plain.script.statements ∧
      (linesList plain.script.statements)[3]?.map Statement.invocation? =
        some (some ⟨"Strike", [""]⟩) ∧
      (linesList filled.script.statements)[3]?.map Statement.invocation? =
        some (some ⟨"Strike", ["VALUE_0"]⟩) ∧
      ∃ slot : Slot, slot.text = "VALUE_0" ∧ ∃ l < 3, ∃ invocation,
        (linesList filled.script.statements)[l]? = some (.assign slot invocation) := by
  have hplain : (fed.compile combat { substitute := false }).toOption.map
      (fun result => (linesList result.script.statements)[3]?.map Statement.invocation?) =
      some (some (some ⟨"Strike", [""]⟩)) := by cbv
  have hfilled : (fed.compile combat { substitute := true }).toOption.map
      (fun result => (linesList result.script.statements)[3]?.map Statement.invocation?) =
      some (some (some ⟨"Strike", ["VALUE_0"]⟩)) := by cbv
  obtain ⟨plain, filled, hp, hf, -, -, hbindings, -, houtline, hlines⟩ :=
    compile_substitution fed combat {} "start" ⟨"Begin", .empty⟩ [] (by cbv)
  obtain ⟨plain', hp', hview⟩ := exists_ok_of_map hplain
  obtain ⟨filled', hf', hview'⟩ := exists_ok_of_map hfilled
  obtain rfl : plain = plain' := Except.ok.inj (hp.symm.trans hp')
  obtain rfl : filled = filled' := Except.ok.inj (hf.symm.trans hf')
  obtain ⟨a, ha, hi⟩ := Option.map_eq_some_iff.1 hview
  obtain ⟨b, hb, hj⟩ := Option.map_eq_some_iff.1 hview'
  obtain ⟨slot, first, rest, -, htext, hassign⟩ := hlines 3 a b _ _ ha hb hi hj (by decide)
  obtain ⟨htext, -⟩ := List.cons.inj htext
  exact ⟨by cbv, plain, filled, hp, hf, hbindings, houtline, hview, hview', slot, htext.symm,
    hassign⟩

end Graph

end ScriptGraph
