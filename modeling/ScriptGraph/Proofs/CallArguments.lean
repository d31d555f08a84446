import ScriptGraph.Json.Decoder
import ScriptGraph.Proofs.JsonText
import ScriptGraph.Proofs.WalkEvents

/-!
# How calls are written

A call of a registered function has as many arguments as its schema has parameters, each the
text of the value under the name in its place. A number is told by its text, in which it can be
read back like a number of a document. With substitution, the edges into the calling
node whose sources hold slots have their say: the last of them decides the first argument. If
there is no argument to take the slots, each of them is reported instead.
-/
namespace ScriptGraph

namespace Value

/-- Reads a text that is a number of a document and nothing else. -/
def readNumber? (text : String) : Option Binary64 :=
  (Json.parse? text).bind (Decoder.run .number)

lemma numberText_cases (x : Binary64) :
    x.isFinite = true ∧ numberText x = (Numeral.ofBinary64 scriptStyle x).text ∨
      x.isFinite = false ∧ (x.isNaN = true ∧ numberText x = "NaN" ∨
        x.isNaN = false ∧ numberText x = if x.negative then "-inf" else "inf") := by
  have hfinite : x.isNaN = true → x.isFinite = false := by
    simp only [Binary64.isNaN, Binary64.isFinite, decide_eq_true_eq, decide_eq_false_iff_not]
    omega
  unfold numberText
  split_ifs with hnan hx <;> simp_all

lemma readNumber?_word : ∀ word ∈ ["NaN", "-inf", "inf"], readNumber? word = none := by
  decide +kernel

/-- A finite number is read back from its text. The texts of the others are not numbers of
documents. -/
theorem readNumber?_numberText (x : Binary64) :
    readNumber? (numberText x) = if x.isFinite then some x else none := by
  rcases numberText_cases x with ⟨hx, htext⟩ | ⟨hx, ⟨-, htext⟩ | ⟨-, htext⟩⟩
  · have hwell := Json.WellFormed.num (Numeral.wellFormed_ofBinary64 scriptStyle x)
    have hparse : Json.parse? (numberText x) = some (.num (.ofBinary64 scriptStyle x)) := by
      rw [htext]
      exact hwell.parse?_pretty
    rw [readNumber?, hparse, if_pos hx]
    simp [Decoder.run, Decoder.number, hx]
  · rw [htext, hx]
    exact readNumber?_word _ (by simp)
  · rw [htext, hx]
    exact readNumber?_word _ (by cases x.negative <;> simp)

/-- An infinite number is told by its sign. -/
lemma eq_of_infinite {x y : Binary64} (hx : x.isFinite = false ∧ x.isNaN = false)
    (hy : y.isFinite = false ∧ y.isNaN = false) (h : x.negative = y.negative) : x = y := by
  obtain ⟨negative, magnitude⟩ := x
  obtain ⟨negative', magnitude'⟩ := y
  simp only [Binary64.isFinite, Binary64.isNaN, decide_eq_false_iff_not] at hx hy
  obtain rfl : negative = negative' := h
  obtain rfl : magnitude = magnitude' := Fin.ext (by omega)
  rfl

/-- Different numbers have different texts, except that what is no number is not told apart. -/
theorem numberText_eq_numberText_iff {x y : Binary64} :
    numberText x = numberText y ↔ x = y ∨ x.isNaN = true ∧ y.isNaN = true := by
  constructor
  · intro h
    have hread := congrArg readNumber? h
    rw [readNumber?_numberText, readNumber?_numberText] at hread
    have hword : ∀ sign : Bool, (if sign then "-inf" else "inf") ≠ "NaN" := by decide
    have hsign : ∀ sign sign' : Bool, (if sign then "-inf" else "inf") =
        (if sign' then "-inf" else "inf") → sign = sign' := by decide
    rcases numberText_cases x with ⟨hx, -⟩ | ⟨hx, ⟨hnan, htext⟩ | ⟨hnan, htext⟩⟩
    · rw [if_pos hx] at hread
      split_ifs at hread
      exact .inl (Option.some.inj hread)
    · rcases numberText_cases y with ⟨hy, -⟩ | ⟨-, ⟨hnan', -⟩ | ⟨-, htext'⟩⟩
      · simp [hx, hy] at hread
      · exact .inr ⟨hnan, hnan'⟩
      · exact absurd (htext'.symm.trans (h.symm.trans htext)) (hword _)
    · rcases numberText_cases y with ⟨hy, -⟩ | ⟨hy, ⟨-, htext'⟩ | ⟨hnan', htext'⟩⟩
      · simp [hx, hy] at hread
      · exact absurd (htext.symm.trans (h.trans htext')) (hword _)
      · have hsame := hsign _ _ (htext.symm.trans (h.trans htext'))
        exact .inl (eq_of_infinite ⟨hx, hnan⟩ ⟨hy, hnan'⟩ hsame)
  · rintro (rfl | ⟨hx, hy⟩)
    · rfl
    · rw [numberText, numberText, if_pos hx, if_pos hy]

end Value

/-- The text that stands for a parameter: that of its value, or nothing if it has none. -/
inductive Parameters.Writes (parameters : Parameters) (name : String) : String → Prop
  | stored {value : Value} : (name, value) ∈ parameters.entries →
      Writes parameters name value.toText
  | absent : (∀ value, (name, value) ∉ parameters.entries) → Writes parameters name ""

lemma Parameters.writes_iff {parameters : Parameters} {name text : String} :
    parameters.Writes name text ↔ ((parameters.get? name).map Value.toText).getD "" = text := by
  cases hget : parameters.get? name with
  | none =>
    have habsent : ∀ value, (name, value) ∉ parameters.entries := fun value hmem => by
      simp [NameMap.get?_eq_some_iff.2 hmem] at hget
    constructor
    · rintro (hmem | _)
      · exact absurd hmem (habsent _)
      · rfl
    · rintro rfl
      exact .absent habsent
  | some value =>
    have hmem := NameMap.get?_eq_some_iff.1 hget
    constructor
    · rintro (hmem' | habsent)
      · rw [NameMap.get?_eq_some_iff.2 hmem'] at hget
        rw [Option.some.inj hget]
        rfl
      · exact absurd hmem (habsent value)
    · rintro rfl
      exact .stored hmem

namespace Event

@[simp] lemma diagnostics_map_reported (problems : List Diagnostic) :
    diagnostics (problems.map .reported) = problems := by
  rw [diagnostics, List.filterMap_map]
  exact List.filterMap_some

@[simp] lemma trace_map_reported (problems : List Diagnostic) :
    trace (problems.map .reported) = [] := by
  rw [trace, List.filterMap_map]
  exact List.filterMap_none problems

end Event

/-- The edge leads to the id, through whatever handles, from a node that holds the slot. -/
def Allocation.Supplies (a : Allocation) (id : NodeId) (e : Edge) (slot : Slot) : Prop :=
  e.target = id ∧ a.slotOf? e.source = some slot

namespace Context

variable {c : Context} {a : Allocation} {id : NodeId} {call : Call} {schema : Schema}
  {slot : Slot} {i : ℕ} {name text : String}

/-- Some edge supplies the id with a slot. -/
def Supplied (c : Context) (a : Allocation) (id : NodeId) : Prop :=
  ∃ e ∈ c.graph.edges, ∃ slot, a.Supplies id e slot

/-- The slot is that of the last edge that supplies the id with one. -/
def LastSupplied (c : Context) (a : Allocation) (id : NodeId) (slot : Slot) : Prop :=
  ∃ before e after, c.graph.edges = before ++ e :: after ∧ a.Supplies id e slot ∧
    ∀ e' ∈ after, ∀ slot', ¬ a.Supplies id e' slot'

/-- The edges that supply the id with slots, in order. -/
def suppliers (c : Context) (a : Allocation) (id : NodeId) : List Edge :=
  c.graph.edges.filter fun e => e.target = id ∧ (a.slotOf? e.source).isSome

/-- The text of the argument in a place whose parameter has this name. -/
inductive Argument (c : Context) (a : Allocation) (id : NodeId) (call : Call) :
    ℕ → String → String → Prop
  | substituted {name : String} {slot : Slot} : c.options.substitute = true →
      c.LastSupplied a id slot → Argument c a id call 0 name slot.text
  | written {i : ℕ} {name text : String} :
      ¬ (i = 0 ∧ c.options.substitute = true ∧ c.Supplied a id) →
      call.parameters.Writes name text → Argument c a id call i name text

lemma incomingSlots_eq (c : Context) (a : Allocation) (id : NodeId) : c.incomingSlots a id =
    c.graph.edges.filterMap fun e => if e.target = id then a.slotOf? e.source else none := by
  simp [incomingSlots, Graph.incoming, List.filterMap_filter]

lemma lastSupplied_iff :
    c.LastSupplied a id slot ↔ (c.incomingSlots a id).getLast? = some slot := by
  rw [incomingSlots_eq, List.getLast?_filterMap, List.findSome?_eq_some_iff]
  constructor
  · rintro ⟨before, e, after, hedges, ⟨htarget, hslot⟩, hlast⟩
    refine ⟨after.reverse, e, before.reverse, by simp [hedges], by simp [htarget, hslot], ?_⟩
    intro e' he'
    have hnot := hlast e' (List.mem_reverse.1 he')
    by_cases htarget' : e'.target = id
    · simpa [Allocation.Supplies, htarget', Option.eq_none_iff_forall_ne_some] using hnot
    · simp [htarget']
  · rintro ⟨after, e, before, hedges, he, hlast⟩
    obtain ⟨htarget, hslot⟩ : e.target = id ∧ a.slotOf? e.source = some slot := by
      simpa using he
    refine ⟨before.reverse, e, after.reverse, ?_, ⟨htarget, hslot⟩, ?_⟩
    · simpa using congrArg List.reverse hedges
    · rintro e' he' slot' ⟨htarget', hslot'⟩
      have hnone := hlast e' (List.mem_reverse.1 he')
      simp [htarget', hslot'] at hnone

lemma supplied_iff : c.Supplied a id ↔ ∃ slot, c.LastSupplied a id slot := by
  constructor
  · rintro ⟨e, he, slot, htarget, hslot⟩
    have hmem : slot ∈ c.incomingSlots a id := by
      rw [incomingSlots_eq]
      exact List.mem_filterMap.2 ⟨e, he, by simp [htarget, hslot]⟩
    exact ⟨_, lastSupplied_iff.2 (List.getLast?_eq_some_getLast (List.ne_nil_of_mem hmem))⟩
  · rintro ⟨slot, before, e, after, hedges, he, -⟩
    exact ⟨e, by simp [hedges], slot, he⟩

lemma argument_iff_writes (h : ¬ (i = 0 ∧ c.options.substitute = true ∧ c.Supplied a id)) :
    c.Argument a id call i name text ↔ call.parameters.Writes name text := by
  constructor
  · intro harg
    cases harg with
    | substituted hsub hlast => exact absurd ⟨rfl, hsub, supplied_iff.2 ⟨_, hlast⟩⟩ h
    | written _ hwrites => exact hwrites
  · exact .written h

lemma argument_iff_text (hsub : c.options.substitute = true) (hlast : c.LastSupplied a id slot) :
    c.Argument a id call 0 name text ↔ slot.text = text := by
  constructor
  · intro harg
    cases harg with
    | substituted _ hlast' =>
      rw [lastSupplied_iff] at hlast hlast'
      rw [Option.some.inj (hlast.symm.trans hlast')]
    | written hnot _ => exact absurd ⟨rfl, hsub, supplied_iff.2 ⟨slot, hlast⟩⟩ hnot
  · rintro rfl
    exact .substituted hsub hlast

lemma getElem?_arguments (hname : schema.parameters[i]? = some name) :
    (schema.arguments call.parameters)[i]? = some text ↔ call.parameters.Writes name text := by
  rw [Parameters.writes_iff]
  simp [Schema.arguments, hname]

@[simp] lemma length_substituteFirst (slots : List Slot) (arguments : List String) :
    (substituteFirst slots arguments).length = arguments.length := by
  cases arguments <;> rfl

/-- Only the first argument gives way, and only if some slot is supplied. -/
lemma getElem?_substituteFirst (hsub : c.options.substitute = true)
    (hname : schema.parameters[i]? = some name) :
    (substituteFirst (c.incomingSlots a id) (schema.arguments call.parameters))[i]? = some text ↔
      c.Argument a id call i name text := by
  obtain ⟨first, rest, hargs⟩ : ∃ first rest, schema.arguments call.parameters = first :: rest :=
    List.exists_cons_of_ne_nil fun hnil => by
      have hlength : schema.parameters.length = 0 := by
        simpa [Schema.arguments] using congrArg List.length hnil
      simp [List.length_eq_zero_iff.1 hlength] at hname
  have hplain : (schema.arguments call.parameters)[i]? = some text ↔
      call.parameters.Writes name text := getElem?_arguments hname
  rw [hargs] at hplain ⊢
  cases i with
  | succ i =>
    rw [argument_iff_writes (by simp), ← hplain]
    simp [substituteFirst]
  | zero =>
    cases hlast : (c.incomingSlots a id).getLast? with
    | none =>
      have hnot : ¬ c.Supplied a id := fun hsupplied => by
        obtain ⟨slot, hslot⟩ := supplied_iff.1 hsupplied
        simp [lastSupplied_iff.1 hslot] at hlast
      rw [argument_iff_writes fun h => hnot h.2.2, ← hplain]
      simp [substituteFirst, hlast]
    | some slot =>
      rw [argument_iff_text hsub (lastSupplied_iff.2 hlast)]
      simp [substituteFirst, hlast]

/-- The slots are those of the supplying edges, in their order. -/
lemma forall₂_incomingSlots (c : Context) (a : Allocation) (id : NodeId) :
    List.Forall₂ (a.Supplies id) (c.suppliers a id) (c.incomingSlots a id) := by
  rw [incomingSlots_eq, suppliers]
  induction c.graph.edges with
  | nil => exact .nil
  | cons e rest ih =>
    by_cases htarget : e.target = id
    · cases hslot : a.slotOf? e.source with
      | none => simpa [htarget, hslot] using ih
      | some slot =>
        have hcons := List.Forall₂.cons (R := a.Supplies id) ⟨htarget, hslot⟩ ih
        simpa [htarget, hslot] using hcons
    · simpa [htarget] using ih

/-- The exact law of how a call is written. There is none exactly if its function is not
registered, which is reported. Otherwise it has an argument for each parameter of the schema, and
the last slot that is supplied stands in place of the first. Slots are reported only if there is
no parameter to take them, in the order of the edges that supply them. Nothing else happens: where
a node does no more than call, neither the allocation nor the trace changes. -/
theorem serialize_exact (c : Context) (a : Allocation) (id : NodeId) (call : Call) :
    ((c.serialize a id call).1 = none ↔ c.registry.lookup? call.function = none) ∧
    (c.registry.lookup? call.function = none →
      (c.serialize a id call).2 = [.unknownFunction id call.function]) ∧
    (∀ schema, c.registry.lookup? call.function = some schema →
      (∃ arguments, (c.serialize a id call).1 = some ⟨call.function, arguments⟩ ∧
        arguments.length = schema.parameters.length ∧
        ∀ i name text, schema.parameters[i]? = some name →
          (arguments[i]? = some text ↔ c.Argument a id call i name text)) ∧
      (schema.parameters = [] ∧ c.options.substitute = true →
        List.Forall₂ (fun e d => ∃ slot, a.Supplies id e slot ∧ d = .substitutionSkipped id slot)
          (c.suppliers a id) (c.serialize a id call).2) ∧
      (¬ (schema.parameters = [] ∧ c.options.substitute = true) →
        (c.serialize a id call).2 = [])) ∧
    ∀ expandable follow n p, n.id = id → n.body = .consequence call → p.allocation = a →
      (c.visit expandable follow n p).value = (c.serialize a id call).1.map .call ∧
      Event.diagnostics (c.visit expandable follow n p).events = (c.serialize a id call).2 ∧
      Event.trace (c.visit expandable follow n p).events = [] ∧
      (c.visit expandable follow n p).progress = p := by
  refine ⟨?_, ?_, fun schema hs => ?_, ?_⟩
  · rcases c.serialize_cases a id call with ⟨hs, he⟩ | ⟨schema, arguments, slots, hs, he, -⟩
    · simp [hs, he]
    · simp [hs, he]
  · intro hs
    simp only [serialize, hs]
  · rw [serialize_of_lookup? hs]
    refine ⟨⟨_, rfl, ?_, fun i name text hname => ?_⟩, fun hskip => ?_, fun hskip => ?_⟩
    · by_cases hsub : c.options.substitute = true <;> simp [hsub, Schema.arguments]
    · by_cases hsub : c.options.substitute = true
      · rw [if_pos hsub]
        exact getElem?_substituteFirst hsub hname
      · rw [if_neg hsub, argument_iff_writes fun h => hsub h.2.1]
        exact getElem?_arguments hname
    · rw [if_pos hskip, List.forall₂_map_right_iff]
      exact (c.forall₂_incomingSlots a id).imp fun e slot he => ⟨slot, he, rfl⟩
    · rw [if_neg hskip]
      rfl
  · rintro expandable follow n p rfl hbody rfl
    rw [visit, hbody]
    exact ⟨rfl, Event.diagnostics_map_reported _, Event.trace_map_reported _, rfl⟩

/-- A node with three edges into it, through different handles, the last from a source that holds
no slot; one of the functions it may call has a parameter twice and one has none. -/
def volley : Context where
  graph := ⟨[], [⟨"roll", .output, "strike", .input⟩, ⟨"draw", .whenTrue, "strike", .output⟩,
    ⟨"idle", .output, "strike", .input⟩]⟩
  registry := Registry.empty.registerAll
    [⟨"Strike", .consequence, ["aim", "power", "haste", "cry", "power"]⟩,
      ⟨"Rest", .consequence, []⟩]
  options := {}

/-- The sources of the first two edges hold slots. -/
def volleyHeld (roll draw : Slot) : Allocation := ⟨[], [("roll", roll), ("draw", draw)]⟩

/-- A number, a text that looks like one, and a text that gives way. -/
def volleyCall : Call := ⟨"Strike", .ofList [("power", .number (.ofRatio true 5 2)),
  ("cry", .text "7"), ("aim", .text "low")]⟩

theorem serialize_exact_volley :
    (∃ arguments, (volley.serialize (volleyHeld ⟨3⟩ ⟨1⟩) "strike" volleyCall).1 =
        some ⟨"Strike", arguments⟩ ∧ arguments.length = 5 ∧ arguments[0]? = some "VALUE_1" ∧
      arguments[1]? = some "-2.5" ∧ arguments[2]? = some "" ∧ arguments[3]? = some "7" ∧
      arguments[4]? = some "-2.5") ∧
    (volley.serialize (volleyHeld ⟨3⟩ ⟨1⟩) "strike" volleyCall).2 = [] ∧
    List.Forall₂ (fun e d => ∃ slot, (volleyHeld ⟨3⟩ ⟨1⟩).Supplies "strike" e slot ∧
        d = .substitutionSkipped "strike" slot)
      [⟨"roll", .output, "strike", .input⟩, ⟨"draw", .whenTrue, "strike", .output⟩]
      (volley.serialize (volleyHeld ⟨3⟩ ⟨1⟩) "strike" ⟨"Rest", .empty⟩).2 ∧
    (volley.serialize (volleyHeld ⟨3⟩ ⟨1⟩) "strike" ⟨"Vanish", .empty⟩).1 = none ∧
    (volley.serialize (volleyHeld ⟨3⟩ ⟨1⟩) "strike" ⟨"Vanish", .empty⟩).2 =
      [.unknownFunction "strike" "Vanish"] ∧
    (volley.visit [] (fun _ h => absurd h List.not_mem_nil)
      ⟨"strike", default, .consequence volleyCall⟩ ⟨volleyHeld ⟨3⟩ ⟨1⟩, 1, false⟩).progress =
        ⟨volleyHeld ⟨3⟩ ⟨1⟩, 1, false⟩ := by
  obtain ⟨-, -, hstrike, hvisit⟩ := serialize_exact volley (volleyHeld ⟨3⟩ ⟨1⟩) "strike" volleyCall
  obtain ⟨-, -, hrest, -⟩ := serialize_exact volley (volleyHeld ⟨3⟩ ⟨1⟩) "strike" ⟨"Rest", .empty⟩
  obtain ⟨hnone, hunknown, -, -⟩ :=
    serialize_exact volley (volleyHeld ⟨3⟩ ⟨1⟩) "strike" ⟨"Vanish", .empty⟩
  have hvanish : volley.registry.lookup? "Vanish" = none := by decide
  obtain ⟨⟨arguments, hcall, hlength, harg⟩, -, hquiet⟩ :=
    hstrike ⟨"Strike", .consequence, ["aim", "power", "haste", "cry", "power"]⟩ (by decide)
  obtain ⟨-, hskipped, -⟩ := hrest ⟨"Rest", .consequence, []⟩ (by decide)
  have hlast : volley.LastSupplied (volleyHeld ⟨3⟩ ⟨1⟩) "strike" ⟨1⟩ := by
    rw [lastSupplied_iff]
    decide
  have hpower : volleyCall.parameters.Writes "power" "-2.5" :=
    Parameters.writes_iff.2 (by decide +kernel)
  have hhaste : volleyCall.parameters.Writes "haste" "" :=
    Parameters.writes_iff.2 (by decide +kernel)
  have hcry : volleyCall.parameters.Writes "cry" "7" :=
    Parameters.writes_iff.2 (by decide +kernel)
  refine ⟨⟨arguments, hcall, hlength, (harg 0 "aim" _ rfl).2 (.substituted rfl hlast),
    (harg 1 "power" _ rfl).2 (.written (by simp) hpower),
    (harg 2 "haste" _ rfl).2 (.written (by simp) hhaste),
    (harg 3 "cry" _ rfl).2 (.written (by simp) hcry),
    (harg 4 "power" _ rfl).2 (.written (by simp) hpower)⟩, hquiet (by decide),
    hskipped (by decide), hnone.2 hvanish, hunknown hvanish, ?_⟩
  exact (hvisit [] _ ⟨"strike", default, .consequence volleyCall⟩ ⟨volleyHeld ⟨3⟩ ⟨1⟩, 1, false⟩
    rfl rfl rfl).2.2.2

end Context

end ScriptGraph
