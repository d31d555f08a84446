import ScriptGraph.Proofs.ElementText
import ScriptGraph.Proofs.PlainImport

/-!
# Graphs come back from the text of their documents

A document whose numbers are finite and whose nodes are not nested too deep is read back
from its text as it is. The document of a graph never nests more than one node into
another, so this holds for the document of every graph with finite numbers. Making a
graph of that document restores the graph if its ids are distinct, and otherwise stops
at the first node whose id a node before it has.
-/
namespace ScriptGraph

namespace Edge

lemma wellFormed_toJson (e : Edge) : e.toJson.WellFormed := by
  refine Json.wellFormed_ofFields ?_
  simp [Json.wellFormed_ofString, Handle.toJson]

lemma decoder_toJson (e : Edge) (depth : ℕ) : decoder (depth + 1) e.toJson = some e := by
  refine (Decoder.record_written [("source", some (.ofString e.source)),
    ("sourceHandle", some e.sourceHandle.toJson), ("target", some (.ofString e.target)),
    ("targetHandle", some e.targetHandle.toJson)] (by simp) _ depth).trans ?_
  simp [Decoder.required]

end Edge

namespace Document

namespace NodeEntry

/-- The fields of an entry, absent ones included. -/
def rows (e : NodeEntry) : List Decoder.Row :=
  [("id", some (.ofString e.id)), ("variant", some e.variant.toJson),
    ("functionName", e.function.map Json.ofString), ("position", some e.position.toJson),
    ("parameters", some e.parameters.toJson), ("boundVariable", e.slot.map Slot.toJson),
    ("embeddedNode", e.embedded.map toJson), ("condition", e.condition.map Condition.toJson)]

lemma toJson_eq (e : NodeEntry) : e.toJson = .ofFields (Decoder.written e.rows) := by
  obtain ⟨id, variant, function, position, parameters, slot, embedded, condition⟩ := e
  cases function <;> cases slot <;> cases embedded <;> cases condition <;> rfl

/-- The numbers of an entry are finite, and so are those of the entries inside it, which
stand fewer than `depth` levels deep. -/
inductive Fits : ℕ → NodeEntry → Prop
  | intro {depth : ℕ} {e : NodeEntry} (position : e.position.isFinite)
    (parameters : ∀ entry ∈ e.parameters.entries, entry.2.isFinite)
    (embedded : ∀ inner ∈ e.embedded, Fits depth inner) : Fits (depth + 1) e

lemma Fits.wellFormed_toJson {depth : ℕ} {e : NodeEntry} (h : Fits depth e) :
    e.toJson.WellFormed := by
  induction h with
  | intro _ _ _ ih =>
    rw [toJson_eq]
    refine Decoder.wellFormed_written ?_
    simpa [rows, Json.wellFormed_ofString, Variant.toJson, Slot.toJson,
      Position.wellFormed_toJson, Parameters.wellFormed_toJson, Condition.wellFormed_toJson]
      using ih

lemma Fits.decoder_toJson {depth : ℕ} {e : NodeEntry} (h : Fits depth e) :
    decoder (depth + 3) e.toJson = some e := by
  induction h with
  | @intro depth e hposition hparameters _ ih =>
    have hfunction : Decoder.optional .string (depth + 3) (e.function.map Json.ofString)
        = some e.function :=
      Decoder.optional_map (fun _ => nofun) fun _ _ => rfl
    have hslot : Decoder.optional Slot.decoder (depth + 3) (e.slot.map Slot.toJson)
        = some e.slot :=
      Decoder.optional_map (fun _ => nofun) fun s _ => s.decoder_toJson _
    have hcondition : Decoder.optional Condition.decoder (depth + 3)
        (e.condition.map Condition.toJson) = some e.condition :=
      Decoder.optional_map (fun _ => nofun) fun c _ => c.decoder_toJson depth
    rw [toJson_eq, decoder, show fieldNames = e.rows.map Prod.fst from rfl,
      Decoder.fieldValues_written (by simp [rows])]
    simp only [rows, List.map_cons, List.map_nil, Decoder.required, Decoder.withDefault,
      Option.bind_eq_bind, Option.bind_some, Option.pure_def, Decoder.string_ofString,
      Variant.decoder_toJson, hfunction, Position.decoder_toJson hposition,
      Parameters.decoder_toJson hparameters, hslot, hcondition]
    -- What is left is the entry inside, which is no null and is read one level deeper.
    rcases e with ⟨id, variant, function, position, parameters, slot, _ | inner, condition⟩
    · rfl
    · obtain ⟨fields, hfields⟩ : ∃ fields, inner.toJson = .obj fields := ⟨_, toJson_eq inner⟩
      have hinner := ih inner rfl
      rw [hfields] at hinner
      simp [hfields, hinner]

lemma fits_ofEmbedded {e : Embedded}
    (h : ∀ entry ∈ e.call.parameters.entries, entry.2.isFinite) (depth : ℕ) :
    Fits (depth + 1) (ofEmbedded e) :=
  .intro rfl h nofun

@[simp] theorem id_ofNode (n : Node) : (ofNode n).id = n.id := by
  unfold ofNode
  split <;> rfl

/-- The entry of a node has one entry inside it at most. -/
theorem fits_ofNode {n : Node} (hposition : n.position.isFinite)
    (hcall : ∀ call ∈ n.body.call?, ∀ entry ∈ call.parameters.entries, entry.2.isFinite)
    (depth : ℕ) : Fits (depth + 2) (ofNode n) := by
  obtain ⟨id, position, body⟩ := n
  cases body with
  | timing call => exact .intro hposition (hcall call rfl) nofun
  | valueAcquisition call => exact .intro hposition (hcall call rfl) nofun
  | consequence call => exact .intro hposition (hcall call rfl) nofun
  | conditional condition => exact .intro hposition nofun nofun
  | continueIf condition => exact .intro hposition nofun nofun
  | assignment slot embedded =>
    refine .intro hposition nofun fun inner hinner => ?_
    obtain ⟨e, rfl, rfl⟩ := Option.map_eq_some_iff.1 hinner
    exact fits_ofEmbedded (hcall e.call rfl) depth

/-- The entry of a node has all that its variant needs. -/
theorem toNode_ofNode (n : Node) : (ofNode n).toNode = .ok n := by
  obtain ⟨id, position, body⟩ := n
  cases body with
  | assignment slot embedded => cases embedded <;> rfl
  | _ => rfl

end NodeEntry

/-- A document of entries that fit is read back from its text. The list of nodes and the
document around it take a level each, and an entry takes three more than it nests. -/
theorem parse?_text {d : Document} (h : ∀ e ∈ d.nodes, e.Fits (Decoder.maxDepth - 5)) :
    parse? d.text = some d := by
  have hwellFormed : d.toJson.WellFormed := by
    have hnodes := Json.wellFormed_list fun e he => (h e he).wellFormed_toJson
    have hedges := Json.wellFormed_list (l := d.edges) fun e _ => e.wellFormed_toJson
    refine Json.wellFormed_ofFields ?_
    simp [hnodes, hedges]
  have hnodes : Decoder.list NodeEntry.decoder 126 (.arr (d.nodes.map NodeEntry.toJson))
      = some d.nodes := Decoder.list_map fun e he => (h e he).decoder_toJson
  have hedges : Decoder.list Edge.decoder 126 (.arr (d.edges.map Edge.toJson))
      = some d.edges := Decoder.list_map fun e _ => e.decoder_toJson 124
  have hread : decoder (126 + 1) d.toJson = some d := by
    refine (Decoder.record_written [("nodes", some (.arr (d.nodes.map NodeEntry.toJson))),
      ("edges", some (.arr (d.edges.map Edge.toJson)))] (by simp) _ 126).trans ?_
    simp [Decoder.withDefault, hnodes, hedges]
  rw [parse?, text, hwellFormed.parse?_pretty]
  exact hread

lemma toGraph_ofGraph {g : Graph} (h : (g.nodes.map (·.id)).Nodup) :
    (ofGraph g).toGraph = .ok g := by
  have hloads : List.Forall₂ (fun e n => e.toNode = .ok n) (ofGraph g).nodes g.nodes :=
    List.forall₂_map_left_iff.2 (List.forall₂_same.2 fun n _ => NodeEntry.toNode_ofNode n)
  exact toGraph_of_forall₂ hloads (by simpa [ofGraph, Function.comp_def] using h)

/-- The first node with an id that was met before is the one that is refused. -/
theorem toGraph_ofGraph_repeated {g : Graph} {before after : List Node} {n : Node}
    (hnodes : g.nodes = before ++ n :: after) (hbefore : (before.map (·.id)).Nodup)
    (hn : n.id ∈ before.map (·.id)) :
    (ofGraph g).toGraph = .error (.duplicateId n.id) := by
  have hids : (before.map NodeEntry.ofNode).map (·.id) = before.map (·.id) := by
    simp [Function.comp_def]
  have hsplit : (ofGraph g).nodes =
      before.map NodeEntry.ofNode ++ NodeEntry.ofNode n :: after.map NodeEntry.ofNode := by
    simp [ofGraph, hnodes]
  have hloadable : Loadable (before.map NodeEntry.ofNode) := by
    refine ⟨hids ▸ hbefore, List.forall_mem_map.2 fun m _ => ?_⟩
    exact (NodeEntry.toNode_eq_ok (NodeEntry.toNode_ofNode m)).1
  have hrefuses : Refuses (before.map NodeEntry.ofNode) (NodeEntry.ofNode n)
      (.duplicateId (NodeEntry.ofNode n).id) := .repeated (by rwa [hids, NodeEntry.id_ofNode])
  rw [toGraph_of_refuses hsplit hloadable hrefuses, NodeEntry.id_ofNode]

/-- Some node is the first whose id a node before it has, unless ids are distinct. -/
theorem exists_first_repeated {nodes : List Node} (h : ¬ (nodes.map (·.id)).Nodup) :
    ∃ before n after, nodes = before ++ n :: after ∧ (before.map (·.id)).Nodup
      ∧ n.id ∈ before.map (·.id) := by
  induction nodes using List.reverseRecOn with
  | nil => exact absurd List.nodup_nil h
  | append_singleton nodes n ih =>
    by_cases hnodes : (nodes.map (·.id)).Nodup
    · refine ⟨nodes, n, [], rfl, hnodes, ?_⟩
      by_contra hn
      exact h (by simpa [List.nodup_append, hnodes] using hn)
    · obtain ⟨before, m, after, rfl, hbefore, hm⟩ := ih hnodes
      exact ⟨before, m, after ++ [n], by simp, hbefore, hm⟩

end Document

/-- Every position and every number given to a parameter is finite. -/
structure Graph.HasFiniteNumbers (g : Graph) : Prop where
  positions : ∀ n ∈ g.nodes, n.position.isFinite
  parameters : ∀ n ∈ g.nodes, ∀ call ∈ n.body.call?,
    ∀ entry ∈ call.parameters.entries, entry.2.isFinite

namespace Document

/-- The text of a graph's document is read back as that document. The graph made of it is
the same graph if ids are distinct; otherwise the first node whose id already occurred is
refused. -/
theorem restore_ofGraph_text {g : Graph} (h : g.HasFiniteNumbers) :
    parse? (ofGraph g).text = some (ofGraph g)
      ∧ ((g.nodes.map (·.id)).Nodup → (ofGraph g).toGraph = .ok g)
      ∧ (¬ (g.nodes.map (·.id)).Nodup →
        ∃ before n after, g.nodes = before ++ n :: after ∧ (before.map (·.id)).Nodup
          ∧ n.id ∈ before.map (·.id)
          ∧ (ofGraph g).toGraph = .error (.duplicateId n.id)) := by
  refine ⟨parse?_text fun e he => ?_, toGraph_ofGraph, fun hids => ?_⟩
  · obtain ⟨n, hn, rfl⟩ := List.mem_map.1 he
    exact NodeEntry.fits_ofNode (h.positions n hn) (h.parameters n hn) _
  · obtain ⟨before, n, after, hnodes, hbefore, hn⟩ := exists_first_repeated hids
    exact ⟨before, n, after, hnodes, hbefore, hn, toGraph_ofGraph_repeated hnodes hbefore hn⟩

/-- A graph with the least and the largest positive number, a negative zero, ids and texts
that have to be escaped, and an edge to no node. -/
def scribbles : Graph where
  nodes := [⟨"a \"b\"\\\n", ⟨.ofBits 0x3FB999999999999A, .ofBits 0x8000000000000000⟩,
      .timing ⟨"On", .ofList [("n", .number (.ofBits 1)), ("\x01", .text "é\x7f")]⟩⟩,
    ⟨"b", default, .assignment (some ⟨.last 9⟩)
      (some ⟨"b", ⟨"get", .ofList [("m", .number (.ofBits 0x7FEFFFFFFFFFFFFF))]⟩⟩)⟩,
    ⟨"", default, .conditional ⟨[⟨"", .notEqual, "\t"⟩], .xor⟩⟩]
  edges := [⟨"b", .output, "", .input⟩, ⟨"", .whenFalse, "gone", .input⟩]

theorem restore_ofGraph_text_scribbles : scribbles.HasFiniteNumbers
    ∧ (scribbles.nodes.map (·.id)).Nodup
    ∧ parse? (ofGraph scribbles).text = some (ofGraph scribbles)
    ∧ (ofGraph scribbles).toGraph = .ok scribbles
    ∧ ∃ id, (ofGraph ⟨scribbles.nodes ++ scribbles.nodes, []⟩).toGraph
      = .error (.duplicateId id) := by
  have hfinite : scribbles.HasFiniteNumbers := ⟨by decide, by decide⟩
  have htwice : Graph.HasFiniteNumbers ⟨scribbles.nodes ++ scribbles.nodes, []⟩ :=
    ⟨by decide, by decide⟩
  have hids : (scribbles.nodes.map (·.id)).Nodup := by decide
  have hrestored := restore_ofGraph_text hfinite
  obtain ⟨_, n, _, _, _, _, hrefused⟩ := (restore_ofGraph_text htwice).2.2 (by decide)
  exact ⟨hfinite, hids, hrestored.1, hrestored.2.1 hids, n.id, hrefused⟩

end Document

end ScriptGraph
