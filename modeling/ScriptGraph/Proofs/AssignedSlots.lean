import ScriptGraph.Proofs.Substitution

/-!
# The slots in a script and in its bindings

A node is bound exactly when its assignment is written, and a node that is visited again is
assigned to the slot it holds. So the slots that a script assigns and the slots of the bindings
come up for the first time in the same order. The invariant that carries this through a run is
stated for the statements of a stretch and the allocations before and after it.
-/
namespace ScriptGraph

open Script (Statement assignedSlots)
open Script.Statement (linesList)

/-- Lists with the same first occurrences have the same also with more put behind them. -/
lemma eraseDups_append_congr {xs ys : List Slot} (h : xs.eraseDups = ys.eraseDups)
    (zs : List Slot) : (xs ++ zs).eraseDups = (ys ++ zs).eraseDups := by
  have hmem : ∀ slot, slot ∈ xs ↔ slot ∈ ys := by
    intro slot
    rw [← List.mem_eraseDups, h, List.mem_eraseDups]
  have hnew : zs.removeAll xs = zs.removeAll ys := by
    refine List.filter_congr fun slot _ => ?_
    rw [Bool.eq_iff_iff]
    simp [hmem slot]
  rw [List.eraseDups_append, List.eraseDups_append, h, hnew]

lemma eraseDups_concat_of_mem {α : Type} [BEq α] [LawfulBEq α] {xs : List α} {x : α}
    (h : x ∈ xs) : (xs ++ [x]).eraseDups = xs.eraseDups := by
  have hnew : [x].removeAll xs = [] := by simp [List.removeAll, h]
  rw [List.eraseDups_append, hnew, List.eraseDups_nil, List.append_nil]

lemma Script.mem_assignedSlots {lines : List Statement} {slot : Slot} :
    slot ∈ assignedSlots lines ↔ ∃ invocation, .assign slot invocation ∈ lines := by
  unfold assignedSlots
  rw [List.mem_filterMap]
  constructor
  · rintro ⟨s, hs, hslot⟩
    cases s with
    | assign other invocation =>
      obtain rfl : other = slot := Option.some.inj hslot
      exact ⟨invocation, hs⟩
    | _ => simp [Statement.assigned?] at hslot
  · rintro ⟨invocation, hs⟩
    exact ⟨_, hs, rfl⟩

namespace Allocation

/-- The slots of the bindings, in the order of binding. -/
def heldSlots (a : Allocation) : List Slot := a.bindings.map Prod.snd

/-- The slots held before some statements, and then those that the statements assign, come up
for the first time in the order in which they are held afterwards. -/
def Records (a : Allocation) (statements : List Statement) (b : Allocation) : Prop :=
  (a.heldSlots ++ assignedSlots (linesList statements)).eraseDups = b.heldSlots.eraseDups

namespace Records

variable {a b d : Allocation} {xs ys : List Statement}

lemma unassigned (a : Allocation) (h : assignedSlots (linesList xs) = []) : a.Records xs a := by
  unfold Records
  rw [h, List.append_nil]

lemma append (hx : a.Records xs b) (hy : b.Records ys d) : a.Records (xs ++ ys) d := by
  unfold Records at hx hy ⊢
  rw [Script.Statement.linesList_append, Script.assignedSlots_append, ← List.append_assoc,
    eraseDups_append_congr hx, hy]

/-- A slot is assigned when it is bound, and again whenever its holder is visited. -/
lemma assign {id : NodeId} {chosen : Option Slot} {slot : Slot}
    (h : a.bind id chosen = some (slot, b)) (invocation : Script.Invocation) :
    a.Records [.assign slot invocation] b := by
  unfold Records
  change (a.heldSlots ++ [slot]).eraseDups = _
  rcases bind_cases h with ⟨hheld, rfl⟩ | ⟨-, rfl, -⟩
  · exact eraseDups_concat_of_mem (slotOf?_mem hheld)
  · simp [heldSlots]

/-- A conditional assigns what its branches assign. -/
lemma conditional {onTrue : List Statement} {onFalse : Option (List Statement)}
    (h : a.Records (onTrue ++ onFalse.getD []) b) (condition : String) :
    a.Records [.conditional condition onTrue onFalse] b := by
  have hlines : assignedSlots (linesList [.conditional condition onTrue onFalse]) =
      assignedSlots (linesList (onTrue ++ onFalse.getD [])) := by
    simp [linesList, Script.Statement.lines, Script.assignedSlots_cons,
      Script.Statement.linesList_getD, Script.Statement.assigned?]
  unfold Records at h ⊢
  rw [hlines, h]

end Records

end Allocation

namespace Context

lemma records_acquire (c : Context) {n : Node} {call : Call} (hcall : n.body.call? = some call)
    (p : Progress) : p.allocation.Records (c.acquire n call p).value.toList
      (c.acquire n call p).progress.allocation := by
  rcases c.acquire_cases n p hcall with
    ⟨-, he⟩ | ⟨-, arguments, notes, -, ⟨-, he⟩ | ⟨slot, allocation, hb, he⟩⟩
  · rw [he]
    exact .unassigned _ rfl
  · rw [he]
    exact .unassigned _ rfl
  · rw [he]
    exact .assign hb _

lemma records_branch (c : Context) (id : NodeId) {follow : Follow}
    (hfollow : ∀ target (q : Progress), q.allocation.Records (follow target q).value
      (follow target q).progress.allocation) (handle : Handle) (p : Progress) :
    p.allocation.Records ((c.branch id follow handle p).value.getD [])
      (c.branch id follow handle p).progress.allocation := by
  have hout := c.branch_outcome id follow handle p
  generalize c.branch id follow handle p = out at hout
  cases hout with
  | followed => exact hfollow _ p
  | _ => exact .unassigned _ rfl

lemma records_visit (c : Context) {expandable : List NodeId}
    {follow : (id : NodeId) → id ∈ expandable → Follow}
    (hfollow : ∀ id hmem target (q : Progress), q.allocation.Records (follow id hmem target q).value
      (follow id hmem target q).progress.allocation) (n : Node) (p : Progress) :
    p.allocation.Records (c.visit expandable follow n p).value.toList
      (c.visit expandable follow n p).progress.allocation := by
  unfold visit
  cases hbody : n.body with
  | timing call => exact .unassigned _ rfl
  | valueAcquisition call => exact c.records_acquire (by rw [hbody]; rfl) p
  | consequence call =>
    dsimp only
    cases (c.serialize p.allocation n.id call).1 <;> exact .unassigned _ rfl
  | conditional condition =>
    dsimp only
    split_ifs with hmem
    · -- The false branch goes on from the allocation that the true one leaves.
      have htrue := c.records_branch n.id (hfollow n.id hmem) .whenTrue p
      have hfalse := c.records_branch n.id (hfollow n.id hmem) .whenFalse
        (c.branch n.id (follow n.id hmem) .whenTrue p).progress
      exact (htrue.append hfalse).conditional condition.text
    · exact .unassigned _ rfl
  | continueIf condition => exact .unassigned _ rfl
  | assignment slot embedded =>
    cases embedded with
    | none => exact .unassigned _ rfl
    | some inner => exact c.records_acquire (by rw [hbody]; rfl) p

/-- Every stretch of a run assigns the slots that it binds. -/
lemma coupling_records (c : Context) : Coupling c c
    fun p x _ _ => p.allocation.Records x.value x.progress.allocation where
  graph_eq := rfl
  nothing _ _ := .unassigned _ rfl
  append hx hy := hx.append hy
  absent _ _ _ _ := .unassigned _ rfl
  visit p _ _ hfollow :=
    c.records_visit (fun id hmem target q => hfollow id hmem target q q) _ p
  call _ hx := hx
  streamed _ _ _ := .unassigned _ rfl

end Context

namespace Graph

/-- A run starts without bindings, so all that is held at its end was assigned. -/
lemma eraseDups_assignedSlots {g : Graph} {registry : Registry} {options : Options}
    {result : Compilation} (h : g.compile registry options = .ok result) :
    (assignedSlots (linesList result.script.statements)).eraseDups =
      (result.bindings.map Prod.snd).eraseDups := by
  obtain ⟨entry, call, others, ht⟩ := timings_of_compile h
  obtain ⟨out, hrun, rfl⟩ := run_of_compile h
  have hstreams := (Context.coupling_records ⟨g, registry, options⟩).streams entry
    (g.outgoing entry .output) (Context.start ⟨g, registry, options⟩)
    (Context.start ⟨g, registry, options⟩)
  rw [Context.run_eq (c := ⟨g, registry, options⟩) ht] at hrun
  obtain rfl := Except.ok.inj hrun
  exact hstreams

/-- The text and the bindings tell the same. The slots that the statements of a script assign,
in the order of the text and each where it comes first, are the slots of the bindings in the
order of binding. So every binding is assigned somewhere, and every slot that is assigned is
reported. -/
theorem compile_assigns_bindings (g : Graph) (registry : Registry) (options : Options)
    {result : Compilation} (h : g.compile registry options = .ok result) :
    (assignedSlots (linesList result.script.statements)).eraseDups =
        (result.bindings.map Prod.snd).eraseDups ∧
      (∀ id slot, (id, slot) ∈ result.bindings →
        ∃ invocation, .assign slot invocation ∈ linesList result.script.statements) ∧
      ∀ slot invocation, .assign slot invocation ∈ linesList result.script.statements →
        ∃ id, (id, slot) ∈ result.bindings := by
  have hfirst := eraseDups_assignedSlots h
  have hmem : ∀ slot,
      (∃ invocation, .assign slot invocation ∈ linesList result.script.statements) ↔
        slot ∈ result.bindings.map Prod.snd := by
    intro slot
    rw [← Script.mem_assignedSlots, ← List.mem_eraseDups, hfirst, List.mem_eraseDups]
  refine ⟨hfirst, fun id slot hbound => ?_, fun slot invocation hassign => ?_⟩
  · exact (hmem slot).2 (List.mem_map_of_mem hbound)
  · simpa using (hmem slot).1 ⟨invocation, hassign⟩

/-- Two nodes that choose one slot, and a node that both branches of a conditional lead to. -/
def doubled : Graph where
  nodes := [⟨"start", default, .timing ⟨"Begin", .empty⟩⟩, ⟨"check", default, .conditional {}⟩,
    ⟨"keep", default, .assignment (Slot.ofIndex? 4) (some ⟨"inner", ⟨"Roll", .empty⟩⟩)⟩,
    ⟨"roll", default, .valueAcquisition ⟨"Roll", .empty⟩⟩,
    ⟨"replace", default, .assignment (Slot.ofIndex? 4) (some ⟨"inner", ⟨"Roll", .empty⟩⟩)⟩]
  edges := [⟨"start", .output, "check", .input⟩, ⟨"start", .output, "replace", .input⟩,
    ⟨"check", .whenTrue, "keep", .input⟩, ⟨"check", .whenFalse, "roll", .input⟩,
    ⟨"keep", .output, "roll", .input⟩]

theorem compile_assigns_bindings_doubled : ∃ result, doubled.compile dice {} = .ok result ∧
    assignedSlots (linesList result.script.statements) = [⟨4⟩, ⟨0⟩, ⟨0⟩, ⟨4⟩] ∧
    result.bindings = [("keep", ⟨4⟩), ("roll", ⟨0⟩), ("replace", ⟨4⟩)] ∧
    (assignedSlots (linesList result.script.statements)).eraseDups =
      (result.bindings.map Prod.snd).eraseDups ∧
    ∃ invocation, .assign ⟨0⟩ invocation ∈ linesList result.script.statements ∧
      ∃ id, (id, ⟨0⟩) ∈ result.bindings := by
  have hview : (doubled.compile dice {}).toOption.map
      (fun result => (assignedSlots (linesList result.script.statements), result.bindings)) =
      some ([⟨4⟩, ⟨0⟩, ⟨0⟩, ⟨4⟩], [("keep", ⟨4⟩), ("roll", ⟨0⟩), ("replace", ⟨4⟩)]) := by cbv
  obtain ⟨result, hok, hparts⟩ := exists_ok_of_map hview
  obtain ⟨hassigned, hbindings⟩ := Prod.mk.inj hparts
  obtain ⟨hfirst, hwritten, hreported⟩ := compile_assigns_bindings doubled dice {} hok
  obtain ⟨invocation, hassign⟩ := hwritten "roll" ⟨0⟩ (by simp [hbindings])
  exact ⟨result, hok, hassigned, hbindings, hfirst, invocation, hassign,
    hreported ⟨0⟩ invocation hassign⟩

end Graph

end ScriptGraph
