import ScriptGraph.Document.Elements
import ScriptGraph.Proofs.JsonText

/-!
# The parts of documents read back from JSON

Each part of a document is written as a well-formed tree, and its decoder reads the same
part out of that tree, whenever enough levels of nesting are left. Numbers have to be
finite for this; what is not finite is written as null. A record is a list of rows, a
name and a value that may be absent: what is written are the rows with a value, and
reading the record gives all the rows back.
-/
namespace ScriptGraph

namespace Json

lemma wellFormed_ofString (s : String) : (ofString s).WellFormed := .str _

lemma wellFormed_ofFields {fields : List (String × Json)}
    (h : ∀ f ∈ fields, f.2.WellFormed) : (ofFields fields).WellFormed := by
  refine .obj fun f hf => ?_
  obtain ⟨g, hg, rfl⟩ := List.mem_map.1 hf
  exact h g hg

lemma wellFormed_list {α : Type} {toJson : α → Json} {l : List α}
    (h : ∀ a ∈ l, (toJson a).WellFormed) : (Json.arr (l.map toJson)).WellFormed := by
  refine .arr fun j hj => ?_
  obtain ⟨a, ha, rfl⟩ := List.mem_map.1 hj
  exact h a ha

end Json

namespace Decoder

/-- Decoding every element of a list that was built element by element. -/
theorem mapM_map {α β γ : Type} {d : β → Option γ} {f : α → γ} {w : α → β} {l : List α}
    (h : ∀ a ∈ l, d (w a) = some (f a)) : (l.map w).mapM d = some (l.map f) := by
  induction l with
  | nil => rfl
  | cons a l ih =>
    simp [h a List.mem_cons_self, ih fun b hb => h b (List.mem_cons_of_mem _ hb)]

lemma list_map {α : Type} {d : Decoder α} {toJson : α → Json} {depth : ℕ} {l : List α}
    (h : ∀ a ∈ l, d depth (toJson a) = some a) :
    list d (depth + 1) (.arr (l.map toJson)) = some l := by
  rw [list, mapM_map (f := id) h, List.map_id]

lemma namedFields_ofFields (fields : List (String × Json)) :
    namedFields (fields.map fun (name, value) => (.text name, value)) = some fields := by
  refine (mapM_map (f := id) fun field _ => ?_).trans (by rw [List.map_id])
  rfl

/-- A field of a record with its value, if it has one. -/
abbrev Row := String × Option Json

/-- The fields that are written for some rows. -/
def written (rows : List Row) : List (String × Json) :=
  rows.filterMap fun row => row.2.map (row.1, ·)

lemma written_cons (row : Row) (rows : List Row) :
    written (row :: rows) = (row.2.map (row.1, ·)).toList ++ written rows := by
  rcases row with ⟨name, _ | j⟩ <;> rfl

lemma filter_written_eq_nil {rows : List Row} {name : String}
    (h : name ∉ rows.map Prod.fst) : (written rows).filter (·.1 == name) = [] := by
  rw [List.filter_eq_nil_iff]
  intro f hf heq
  obtain ⟨row, hrow, hf⟩ := List.mem_filterMap.1 hf
  obtain ⟨j, -, rfl⟩ := Option.map_eq_some_iff.1 hf
  exact h (List.mem_map.2 ⟨row, hrow, beq_iff_eq.1 heq⟩)

lemma filter_written {rows : List Row} (hrows : (rows.map Prod.fst).Nodup) {row : Row}
    (h : row ∈ rows) :
    (written rows).filter (·.1 == row.1) = (row.2.map (row.1, ·)).toList := by
  induction rows with
  | nil => exact absurd h List.not_mem_nil
  | cons head rows ih =>
    rw [List.map_cons, List.nodup_cons] at hrows
    rw [written_cons, List.filter_append]
    rcases List.mem_cons.1 h with rfl | h
    · rw [filter_written_eq_nil hrows.1, List.append_nil]
      rcases row with ⟨name, _ | j⟩ <;> simp
    · have hne : head.1 ≠ row.1 := fun heq => hrows.1 (heq ▸ List.mem_map_of_mem h)
      rw [ih hrows.2 h]
      rcases head with ⟨name, _ | j⟩ <;> simp_all

/-- Each row of a record is found among what is written, as it is. -/
theorem field?_written {rows : List Row} (hrows : (rows.map Prod.fst).Nodup) {row : Row}
    (h : row ∈ rows) : field? (written rows) row.1 = some row.2 := by
  rw [field?, filter_written hrows h]
  rcases row with ⟨name, _ | j⟩ <;> rfl

lemma fieldValues_written {rows : List Row} (hrows : (rows.map Prod.fst).Nodup) :
    fieldValues (rows.map Prod.fst) (.ofFields (written rows)) = some (rows.map Prod.snd) := by
  simp only [fieldValues, Json.ofFields, namedFields_ofFields]
  exact mapM_map fun row hrow => field?_written hrows hrow

lemma wellFormed_written {rows : List Row} (h : ∀ row ∈ rows, ∀ j ∈ row.2, j.WellFormed) :
    (Json.ofFields (written rows)).WellFormed := by
  refine Json.wellFormed_ofFields fun f hf => ?_
  obtain ⟨row, hrow, hf⟩ := List.mem_filterMap.1 hf
  obtain ⟨j, hj, rfl⟩ := Option.map_eq_some_iff.1 hf
  exact h row hrow j hj

/-- A record is built from the values of all its rows. -/
theorem record_written {α : Type} (rows : List Row) (hrows : (rows.map Prod.fst).Nodup)
    (build : ℕ → List (Option Json) → Option α) (depth : ℕ) :
    record (rows.map Prod.fst) build (depth + 1) (.ofFields (written rows))
      = build depth (rows.map Prod.snd) := by
  rw [record, fieldValues_written hrows]
  rfl

@[simp] theorem string_ofString (s : String) (depth : ℕ) :
    string depth (.ofString s) = some s :=
  rfl

lemma constant_ofString {α : Type} {ofName? : String → Option α} {name : String} {a : α}
    (h : ofName? name = some a) (depth : ℕ) :
    constant ofName? depth (.ofString name) = some a := by
  rwa [Json.ofString, constant]

lemma nullable_of_ne_null {α : Type} (d : Decoder α) (depth : ℕ) {j : Json} (hj : j ≠ .null) :
    nullable d depth j = (d depth j).map some := by
  cases j with
  | null => exact absurd rfl hj
  | _ => rfl

/-- A field that is left out when it has no value is read back; no value may look like
one that is absent. -/
theorem optional_map {α : Type} {d : Decoder α} {toJson : α → Json} {depth : ℕ} {o : Option α}
    (hnull : ∀ a, toJson a ≠ .null) (h : ∀ a ∈ o, d depth (toJson a) = some a) :
    optional d depth (o.map toJson) = some o := by
  cases o with
  | none => rfl
  | some a =>
    rw [Option.map_some, optional, withDefault, nullable_of_ne_null d depth (hnull a), h a rfl]
    rfl

end Decoder

namespace NameMap

variable {α : Type}

lemma insertEntry_of_forall_lt {name : String} (value : α) {entries : List (String × α)}
    (h : ∀ e ∈ entries, e.1 < name) :
    insertEntry name value entries = entries ++ [(name, value)] := by
  induction entries with
  | nil => rfl
  | cons head rest ih =>
    have hlt : head.1 < name := h head List.mem_cons_self
    have hnlt : ¬ name < head.1 := fun hgt => String.lt_irrefl _ (String.lt_trans hlt hgt)
    have hne : name ≠ head.1 := fun heq => String.lt_irrefl _ (heq ▸ hlt)
    rw [insertEntry, if_neg hnlt, if_neg hne, ih fun e he => h e (List.mem_cons_of_mem _ he)]
    rfl

/-- Entries that come in ascending order are put at the end one after another. -/
theorem entries_foldl_insert (m : NameMap α) {l : List (String × α)}
    (h : (m.entries ++ l).Pairwise fun a b => a.1 < b.1) :
    (l.foldl (fun m (name, value) => m.insert name value) m).entries = m.entries ++ l := by
  induction l generalizing m with
  | nil => simp
  | cons head rest ih =>
    have hhead : (m.insert head.1 head.2).entries = m.entries ++ [head] :=
      insertEntry_of_forall_lt _ fun e he =>
        (List.pairwise_append.1 h).2.2 e he head List.mem_cons_self
    rw [List.foldl_cons, ih _ (by rw [hhead]; simpa using h), hhead]
    simp

lemma ofList_entries (m : NameMap α) : ofList m.entries = m := by
  have h : (ofList m.entries).entries = m.entries :=
    entries_foldl_insert empty (by simpa [empty] using m.ascending)
  rcases hm : ofList m.entries with ⟨entries, _⟩
  rw [hm] at h
  subst h
  rfl

end NameMap

namespace Slot

@[simp] theorem ofText?_text (s : Slot) : ofText? s.text = some s := by
  obtain ⟨i⟩ := s
  fin_cases i <;> decide

@[simp] theorem decoder_toJson (s : Slot) (depth : ℕ) : decoder depth s.toJson = some s :=
  ofText?_text s

end Slot

@[simp] theorem Handle.decoder_toJson (h : Handle) (depth : ℕ) :
    decoder depth h.toJson = some h :=
  Decoder.constant_ofString (ofText?_text h) depth

@[simp] theorem Variant.decoder_toJson (v : Variant) (depth : ℕ) :
    decoder depth v.toJson = some v :=
  Decoder.constant_ofString (ofText?_text v) depth

namespace Binary64

lemma wellFormed_toJson (x : Binary64) : x.toJson.WellFormed := by
  unfold toJson
  split_ifs
  · exact .num (Numeral.wellFormed_ofBinary64 _ x)
  · exact .null

lemma number_toJson {x : Binary64} (hx : x.isFinite) (depth : ℕ) :
    Decoder.number depth x.toJson = some x := by
  rw [toJson, if_pos hx, Decoder.number, Numeral.toBinary64_ofBinary64 _ hx, if_pos hx]

end Binary64

namespace Value

/-- A number has to be finite; a text is no number. -/
def isFinite : Value → Bool
  | number x => x.isFinite
  | text _ => true

lemma wellFormed_toJson (v : Value) : v.toJson.WellFormed := by
  cases v with
  | number x => exact x.wellFormed_toJson
  | text s => exact .str _

lemma decoder_toJson {v : Value} (hv : v.isFinite) (depth : ℕ) :
    decoder depth v.toJson = some v := by
  cases v with
  | number x =>
    have hx : x.toJson = .num (.ofBinary64 Binary64.documentStyle x) := if_pos hv
    have hread := Binary64.number_toJson hv depth
    rw [hx] at hread
    rw [toJson, hx, decoder, hread]
    rfl
  | text s => rfl

end Value

namespace Parameters

lemma wellFormed_toJson (p : Parameters) : (toJson p).WellFormed := by
  refine Json.wellFormed_ofFields fun f hf => ?_
  obtain ⟨entry, -, rfl⟩ := List.mem_map.1 hf
  exact entry.2.wellFormed_toJson

lemma decoder_toJson {p : Parameters} (hp : ∀ entry ∈ p.entries, entry.2.isFinite)
    (depth : ℕ) : decoder (depth + 1) (toJson p) = some p := by
  rw [toJson, Json.ofFields, decoder, Decoder.namedFields_ofFields]
  simp only [Option.bind_eq_bind, Option.bind_some]
  rw [Decoder.mapM_map (f := id) (l := p.entries), List.map_id]
  · exact congrArg some (NameMap.ofList_entries p)
  · intro entry hentry
    simp [Value.decoder_toJson (hp entry hentry)]

end Parameters

namespace Position

def isFinite (p : Position) : Bool := p.x.isFinite && p.y.isFinite

lemma wellFormed_toJson (p : Position) : p.toJson.WellFormed := by
  refine Json.wellFormed_ofFields ?_
  simp [Binary64.wellFormed_toJson]

lemma decoder_toJson {p : Position} (hp : p.isFinite) (depth : ℕ) :
    decoder (depth + 1) p.toJson = some p := by
  obtain ⟨hx, hy⟩ := Bool.and_eq_true_iff.1 hp
  refine (Decoder.record_written [("x", some p.x.toJson), ("y", some p.y.toJson)]
    (by simp) _ depth).trans ?_
  simp [Decoder.required, Binary64.number_toJson hx, Binary64.number_toJson hy]

end Position

namespace Comparison

@[simp] theorem ofText?_text (c : Comparison) : ofText? c.text = some c := by
  cases c <;> decide

@[simp] theorem decoder_toJson (c : Comparison) (depth : ℕ) : decoder depth c.toJson = some c :=
  Decoder.constant_ofString (ofText?_text c) depth

end Comparison

namespace Logic

@[simp] theorem ofText?_text (l : Logic) : ofText? l.text = some l := by
  cases l <;> decide

@[simp] theorem decoder_toJson (l : Logic) (depth : ℕ) : decoder depth l.toJson = some l :=
  Decoder.constant_ofString (ofText?_text l) depth

end Logic

namespace Term

lemma wellFormed_toJson (t : Term) : t.toJson.WellFormed := by
  refine Json.wellFormed_ofFields ?_
  simp [Json.wellFormed_ofString, Comparison.toJson]

lemma decoder_toJson (t : Term) (depth : ℕ) : decoder (depth + 1) t.toJson = some t := by
  refine (Decoder.record_written [("left", some (.ofString t.left)),
    ("operator", some t.operator.toJson), ("right", some (.ofString t.right))]
    (by simp) _ depth).trans ?_
  simp [Decoder.required]

end Term

namespace Condition

lemma wellFormed_toJson (c : Condition) : c.toJson.WellFormed := by
  have hterms := Json.wellFormed_list (l := c.terms) fun t _ => t.wellFormed_toJson
  refine Json.wellFormed_ofFields ?_
  simp [Json.wellFormed_ofString, hterms, Logic.toJson]

/-- A condition holds a list of terms, which are records, so it takes three levels. -/
theorem decoder_toJson (c : Condition) (depth : ℕ) :
    decoder (depth + 3) c.toJson = some c := by
  refine (Decoder.record_written [("terms", some (.arr (c.terms.map Term.toJson))),
    ("logic", some c.logic.toJson)] (by simp) _ (depth + 2)).trans ?_
  have hterms := Decoder.list_map (l := c.terms) fun t _ => Term.decoder_toJson t depth
  simp [Decoder.withDefault, hterms]

end Condition

end ScriptGraph
