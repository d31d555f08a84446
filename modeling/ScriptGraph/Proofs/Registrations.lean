import Mathlib.Data.List.DropRight
import ScriptGraph.Function.Loading
import ScriptGraph.Proofs.ByteOrder

/-!
# What a registry shows of its registrations

However a registry came about, it is the history of its registrations that decides what it
shows. A name is looked up by the last schema of that name, and everything else follows from
this: the listing has each name that was registered once, in the order of the names' bytes, and
the categories divide the listing among them.
-/
namespace ScriptGraph

namespace Text

/-- A text without the blank characters at its ends. -/
def trimmed (s : String) : String :=
  .ofList ((s.toList.dropWhile isBlankChar).rdropWhile isBlankChar)

/-- A text is blank if trimming leaves nothing of it. -/
lemma isBlank_iff {s : String} : isBlank s = true ↔ trimmed s = "" := by
  have hempty : trimmed s = "" ↔
      ∀ c ∈ s.toList.dropWhile isBlankChar, isBlankChar c = true := by
    rw [trimmed, ← List.rdropWhile_eq_nil_iff, String.ofList_eq_empty_iff]
  rw [hempty, isBlank, List.all_eq_true]
  constructor
  · intro h c hc
    exact h c (List.dropWhile_sublist _ |>.mem hc)
  · intro h
    -- The first character that is left would not be blank.
    refine List.dropWhile_eq_nil_iff.1 ?_
    by_contra hne
    have hhead := h _ (List.head_mem hne)
    rw [List.head_dropWhile_not isBlankChar hne] at hhead
    cases hhead

end Text

namespace Registry

variable {r : Registry} {history : List Schema}

/-- The schemas that a text lists, if it is a well-formed list of schemas. -/
def listed? (text : String) : Option (List Schema) :=
  (Json.parse? text).bind (Decoder.run (.list Schema.decoder))

/-- What a registry is before anything else is registered. -/
inductive Origin
  | empty
  | builtIn
  | loaded (text : String)

namespace Origin

def registry : Origin → Except LoadError Registry
  | empty => .ok .empty
  | builtIn => .ok .builtIn
  | loaded text => ofJson text

/-- The schemas of an origin. Those of a text come behind the built-in ones. -/
def schemas : Origin → List Schema
  | empty => []
  | builtIn => catalog
  | loaded text => catalog ++ (listed? text).getD []

end Origin

/-- The last schema of a name in a history. -/
def lastNamed? (history : List Schema) (name : String) : Option Schema :=
  (history.filter (·.name == name)).getLast?

lemma name_of_lastNamed? {name : String} {s : Schema} (h : lastNamed? history name = some s) :
    s.name = name := by
  have hmem := List.mem_of_getLast? h
  simpa using (List.mem_filter.1 hmem).2

lemma lookup?_register (r : Registry) (s : Schema) (name : String) :
    (r.register s).lookup? name = if name = s.name then some s else r.lookup? name :=
  NameMap.get?_insert r.schemas s.name s name

/-- The last of the added schemas counts, and without one the registry that they were added to. -/
lemma lookup?_registerAll (r : Registry) (added : List Schema) (name : String) :
    (r.registerAll added).lookup? name = (lastNamed? added name).or (r.lookup? name) := by
  induction added generalizing r with
  | nil => rfl
  | cons s rest ih =>
    have hrest := ih (r.register s)
    rw [lookup?_register] at hrest
    rw [registerAll, List.foldl_cons, ← registerAll, hrest]
    by_cases hname : s.name = name
    · subst hname
      simp only [lastNamed?, if_pos, List.filter_cons, beq_self_eq_true, List.getLast?_cons]
      cases (rest.filter (·.name == s.name)).getLast? <;> rfl
    · rw [if_neg (Ne.symm hname), lastNamed?, lastNamed?, List.filter_cons_of_neg (by simpa)]

lemma lookup?_empty_registerAll (history : List Schema) (name : String) :
    (empty.registerAll history).lookup? name = lastNamed? history name := by
  rw [lookup?_registerAll]
  exact Option.or_none

lemma registerAll_append (r : Registry) (xs ys : List Schema) :
    r.registerAll (xs ++ ys) = (r.registerAll xs).registerAll ys :=
  List.foldl_append

/-- The categories divide any list of schemas among them. -/
lemma categories_perm (schemas : List Schema) :
    (Category.all.flatMap fun c => schemas.filter (·.category == c)).Perm schemas := by
  rw [List.perm_iff_count]
  intro s
  have hcount : ∀ c, (schemas.filter (·.category == c)).count s =
      if s.category = c then schemas.count s else 0 := by
    intro c
    split_ifs with hc
    · exact List.count_filter (by simpa using hc)
    · exact List.count_eq_zero.2 fun hmem => hc (by simpa using (List.mem_filter.1 hmem).2)
  simp only [Category.all, List.flatMap_cons, List.flatMap_nil, List.count_append, hcount]
  cases s.category <;> simp

/-- What a registry shows of the schemas that were registered in it, in their order. -/
structure Shows (history : List Schema) (r : Registry) : Prop where
  lookup : ∀ name, r.lookup? name = lastNamed? history name
  found : ∀ s ∈ r.toList, r.lookup? s.name = some s
  ascending : r.toList.Pairwise fun s t => Text.bytes s.name < Text.bytes t.name
  mem_toList : ∀ s, s ∈ r.toList ↔ ∃ name, r.lookup? name = some s
  length_toList : r.toList.length = r.size
  divided : (Category.all.flatMap r.ofCategory).Perm r.toList
  ofCategory : ∀ c, (∀ s, s ∈ r.ofCategory c ↔ s ∈ r.toList ∧ s.category = c) ∧
    (r.ofCategory c).Pairwise fun s t => Text.bytes s.name < Text.bytes t.name

/-- The listing has what can be looked up. -/
lemma mem_toList_iff {s : Schema} : s ∈ r.toList ↔ ∃ name, r.lookup? name = some s := by
  simp only [toList, NameMap.values, lookup?, NameMap.get?_eq_some_iff, List.mem_map]
  constructor
  · rintro ⟨⟨name, t⟩, hmem, rfl⟩
    exact ⟨name, hmem⟩
  · rintro ⟨name, hmem⟩
    exact ⟨(name, s), hmem, rfl⟩

/-- If names are looked up by the history, then schemas are stored under their own names, and so
the order of the map is that of the names. -/
theorem shows_of_lookup (h : ∀ name, r.lookup? name = lastNamed? history name) :
    r.Shows history := by
  have hname : ∀ {name s}, r.lookup? name = some s → s.name = name := by
    intro name s hs
    exact name_of_lastNamed? ((h name).symm.trans hs)
  have hascending : r.toList.Pairwise fun s t => Text.bytes s.name < Text.bytes t.name := by
    refine List.pairwise_map.2 (r.schemas.ascending.imp_of_mem fun {e f} he hf hlt => ?_)
    have hstored := hname (NameMap.get?_eq_some_iff.2 he)
    have hstored' := hname (NameMap.get?_eq_some_iff.2 hf)
    rw [hstored, hstored']
    exact Text.bytes_lt_of_lt hlt
  constructor
  case lookup => exact h
  case found =>
    intro s hs
    obtain ⟨name, hlookup⟩ := mem_toList_iff.1 hs
    rwa [hname hlookup]
  case ascending => exact hascending
  case mem_toList => exact fun s => mem_toList_iff
  case length_toList => exact List.length_map ..
  case divided => exact categories_perm r.toList
  case ofCategory =>
    intro c
    refine ⟨fun s => ?_, hascending.sublist List.filter_sublist⟩
    rw [Registry.ofCategory, List.mem_filter, beq_iff_eq]

lemma shows_registerAll (history : List Schema) : (empty.registerAll history).Shows history :=
  shows_of_lookup (lookup?_empty_registerAll history)

lemma ofJson_of_listed {text : String} {schemas : List Schema} (h : listed? text = some schemas) :
    ofJson text = ofSchemas schemas := by
  unfold listed? at h
  rw [ofJson, h]

/-- A list of schemas is refused for a blank name, or added to the built-in schemas. -/
lemma ofSchemas_cases (schemas : List Schema) :
    (∃ s ∈ schemas, Text.trimmed s.name = "") ∧ ofSchemas schemas = .error .blankName ∨
      (∀ s ∈ schemas, Text.trimmed s.name ≠ "") ∧
        ofSchemas schemas = .ok (builtIn.registerAll schemas) := by
  unfold ofSchemas
  split_ifs with hblank
  · obtain ⟨s, hs, hname⟩ := List.any_eq_true.1 hblank
    exact .inl ⟨⟨s, hs, Text.isBlank_iff.1 hname⟩, rfl⟩
  · refine .inr ⟨fun s hs hname => hblank ?_, rfl⟩
    exact List.any_eq_true.2 ⟨s, hs, Text.isBlank_iff.2 hname⟩

/-- An origin is what its schemas make of the empty registry. -/
lemma Origin.registry_eq {o : Origin} (h : o.registry = .ok r) :
    r = Registry.empty.registerAll o.schemas := by
  cases o with
  | empty => exact (Except.ok.inj h).symm
  | builtIn => exact (Except.ok.inj h).symm
  | loaded text =>
    change ofJson text = .ok r at h
    cases hlisted : listed? text with
    | none =>
      unfold listed? at hlisted
      simp [ofJson, hlisted] at h
    | some schemas =>
      rw [ofJson_of_listed hlisted] at h
      rcases ofSchemas_cases schemas with ⟨-, herror⟩ | ⟨-, hok⟩
      · simp [herror] at h
      · rw [hok] at h
        rw [← Except.ok.inj h, Origin.schemas, hlisted, registerAll_append]
        rfl

/-- Whatever a registry was at first and whatever was registered then, it shows its history. A
text that lists schemas is refused for a blank name and for nothing else, and what it lists goes
before the built-in functions. -/
theorem registrations_shown :
    (∀ text schemas, listed? text = some schemas →
      (ofJson text = .error .blankName ↔ ∃ s ∈ schemas, Text.trimmed s.name = "") ∧
      ((∀ s ∈ schemas, Text.trimmed s.name ≠ "") → ∃ r, ofJson text = .ok r ∧
        ∀ name, r.lookup? name = (lastNamed? schemas name).or (builtIn.lookup? name))) ∧
    ∀ (o : Origin) (start : Registry) (added : List Schema), o.registry = .ok start →
      (start.registerAll added).Shows (o.schemas ++ added) := by
  constructor
  · intro text schemas hlisted
    rw [ofJson_of_listed hlisted]
    rcases ofSchemas_cases schemas with ⟨⟨s, hs, hblank⟩, herror⟩ | ⟨hnames, hok⟩
    · refine ⟨⟨fun _ => ⟨s, hs, hblank⟩, fun _ => herror⟩, fun hnames => ?_⟩
      exact absurd hblank (hnames s hs)
    · refine ⟨⟨fun herror => ?_, fun ⟨s, hs, hblank⟩ => absurd hblank (hnames s hs)⟩, fun _ => ?_⟩
      · simp [hok] at herror
      · exact ⟨_, hok, lookup?_registerAll builtIn schemas⟩
  · intro o start added hstart
    rw [Origin.registry_eq hstart, ← registerAll_append]
    exact shows_registerAll _

/-- A list of schemas as text, each of them written as a list itself. It gives one name twice,
which is also that of a built-in function. -/
def dialect : String :=
  "[[\"buf\", \"Timing\"], [\"é\", \"Consequence\", [\"x\"]], [\"buf\", \"Consequence\", [\"a\"]]]"

/-- The last schema of a name is found in place of the built-in one and of those before it. A name
of blanks can be registered but not loaded. -/
theorem registrations_shown_dialect :
    listed? dialect = some [⟨"buf", .timing, []⟩, ⟨"é", .consequence, ["x"]⟩,
      ⟨"buf", .consequence, ["a"]⟩] ∧
    listed? "[[\"buf\", \"Timing\"], [\" \\t\", \"Timing\"]]" =
      some [⟨"buf", .timing, []⟩, ⟨" \t", .timing, []⟩] ∧
    ofJson "[[\"buf\", \"Timing\"], [\" \\t\", \"Timing\"]]" = .error .blankName ∧
    ∃ start r, ofJson dialect = .ok start ∧
      start.registerAll [⟨"é", .timing, []⟩, ⟨" \t", .timing, []⟩] = r ∧
      r.lookup? "buf" = some ⟨"buf", .consequence, ["a"]⟩ ∧
      r.lookup? "é" = some ⟨"é", .timing, []⟩ ∧ r.lookup? "z" = none ∧
      r.lookup? "gethp" = some ⟨"gethp", .valueAcquisition, ["target"]⟩ ∧
      ⟨" \t", .timing, []⟩ ∈ r.ofCategory .timing ∧
      (Category.all.flatMap r.ofCategory).Perm r.toList ∧
      r.toList.Pairwise fun s t => Text.bytes s.name < Text.bytes t.name := by
  obtain ⟨hloads, hshows⟩ := registrations_shown
  have hlisted : listed? dialect = some [⟨"buf", .timing, []⟩, ⟨"é", .consequence, ["x"]⟩,
      ⟨"buf", .consequence, ["a"]⟩] := by cbv
  have hblank : listed? "[[\"buf\", \"Timing\"], [\" \\t\", \"Timing\"]]" =
      some [⟨"buf", .timing, []⟩, ⟨" \t", .timing, []⟩] := by cbv
  have hrefused := ((hloads _ _ hblank).1).2 ⟨⟨" \t", .timing, []⟩, by decide, by decide⟩
  obtain ⟨start, hstart, -⟩ := (hloads _ _ hlisted).2 (by decide)
  have hr := hshows (.loaded dialect) start [⟨"é", .timing, []⟩, ⟨" \t", .timing, []⟩] hstart
  have hschemas : (Origin.loaded dialect).schemas = catalog ++ [⟨"buf", .timing, []⟩,
      ⟨"é", .consequence, ["x"]⟩, ⟨"buf", .consequence, ["a"]⟩] := by
    rw [Origin.schemas, hlisted]
    rfl
  rw [hschemas] at hr
  refine ⟨hlisted, hblank, hrefused, start, _, hstart, rfl, ?_, ?_, ?_, ?_, ?_, hr.divided,
    hr.ascending⟩
  · rw [hr.lookup]; decide
  · rw [hr.lookup]; decide
  · rw [hr.lookup]; decide
  · rw [hr.lookup]; decide
  · refine ((hr.ofCategory .timing).1 _).2 ⟨(hr.mem_toList _).2 ⟨" \t", ?_⟩, rfl⟩
    rw [hr.lookup]; decide

end Registry

end ScriptGraph
