import Mathlib.Tactic.FinCases
import ScriptGraph.Json.Printer
import ScriptGraph.Json.Reader
import ScriptGraph.Proofs.NumberText

/-!
# JSON trees read back from their pretty text

The reader accepts what the pretty layout writes and gives the same tree, for every tree
whose numerals have the shape of JSON numbers. Literals, numerals and values are read
from the front of a longer text, so each statement is about any text that may follow.
The reader keeps what is open in its state, so the one for values is about any state
that asks for a value and ends in the state where that value is complete.
-/
namespace ScriptGraph.Json

namespace Literal

lemma hexDigit?_hexChar : ∀ n < 16, hexDigit? (hexChar n) = some n := by decide

/-- A code unit that is no half of a surrogate pair is a character, whatever stands
before it. -/
theorem combine_unit {code : ℕ} (hlow : isLow code = false) (hhigh : isHigh code = false)
    (after : List Char) (before : List Piece) :
    combine after (.unit code :: before) = combine (Char.ofNat code :: after) before := by
  rw [combine.eq_def]
  split <;> simp_all

/-- An escaped character is read as one piece, and that piece stands for the
character. -/
theorem exists_piece (c : Char) : ∃ p : Piece,
    (∀ before rest, pieces before (escapeChar c ++ rest) = pieces (p :: before) rest)
      ∧ ∀ after before, combine after (p :: before) = combine (c :: after) before := by
  by_cases hshort : c ∈ ['"', '\\', '\x08', '\x0c', '\n', '\r', '\t']
  · refine ⟨.char c, fun before rest => ?_, fun _ _ => by rw [combine]⟩
    fin_cases hshort <;> simp [escapeChar, pieces, shortEscape?]
  simp only [List.mem_cons, List.not_mem_nil, or_false, not_or] at hshort
  obtain ⟨h₁, h₂, h₃, h₄, h₅, h₆, h₇⟩ := hshort
  by_cases hlow : c.toNat < 0x20
  · -- Written by its code, and such a small code is no half of a surrogate pair.
    refine ⟨.unit c.toNat, fun before rest => ?_, fun after before => ?_⟩
    · have hunit : hexUnit? '0' '0' (hexChar (c.toNat / 16)) (hexChar (c.toNat % 16))
          = some c.toNat := by
        simp only [hexUnit?, hexDigit?_hexChar _ (show c.toNat / 16 < 16 by omega),
          hexDigit?_hexChar _ (show c.toNat % 16 < 16 by omega),
          show hexDigit? '0' = some 0 from rfl, Option.bind_eq_bind, Option.bind_some,
          Option.pure_def, Option.some.injEq]
        omega
      simp [escapeChar, h₁, h₂, h₃, h₄, h₅, h₆, h₇, hlow, pieces, hunit]
    · rw [combine_unit (by simp [isLow]; omega) (by simp [isHigh]; omega), Char.ofNat_toNat]
  · refine ⟨.char c, fun before rest => ?_, fun _ _ => by rw [combine]⟩
    have hself : escapeChar c = [c] := by simp [escapeChar, h₁, h₂, h₃, h₄, h₅, h₆, h₇, hlow]
    rw [hself, List.singleton_append, pieces.eq_def]
    split <;> simp_all

/-- The pieces of an escaped text stand for the text. -/
theorem exists_pieces (s : List Char) : ∃ ps : List Piece,
    (∀ before rest,
        pieces before (s.flatMap escapeChar ++ rest) = pieces (ps ++ before) rest)
      ∧ ∀ after before, combine after (ps ++ before) = combine (s ++ after) before := by
  induction s with
  | nil => exact ⟨[], fun _ _ => rfl, fun _ _ => rfl⟩
  | cons c s ih =>
    obtain ⟨p, hread, hmeans⟩ := exists_piece c
    obtain ⟨ps, hreads, hmean⟩ := ih
    -- Pieces are kept last one first.
    refine ⟨ps ++ [p], fun before rest => ?_, fun after before => ?_⟩
    · rw [List.flatMap_cons, List.append_assoc, hread, hreads, List.append_assoc]
      rfl
    · rw [List.append_assoc, hmean]
      exact hmeans _ _

end Literal

namespace Token

/-- A literal is read back, whatever follows its closing quote. -/
theorem lexeme_literal (l : Literal) (rest : List Char) :
    lexeme (l.chars ++ rest) = some (.str l, rest) := by
  cases l with
  | unpaired => rfl
  | text s =>
    obtain ⟨ps, hreads, hmean⟩ := Literal.exists_pieces s.toList
    have hpieces : Literal.pieces [] (s.toList.flatMap escapeChar ++ '"' :: rest)
        = some (ps, rest) := by
      rw [hreads, List.append_nil, Literal.pieces]
    have hcombine : Literal.combine [] ps = some s.toList := by
      simpa [Literal.combine] using hmean [] []
    simp [Literal.chars, lexeme, hpieces, Literal.ofPieces, hcombine]

/-- The text does not start with a character that could continue a numeral. -/
def Delimited (rest : List Char) : Prop :=
  ∀ c ∈ rest.head?, c.isDigit = false ∧ c ≠ '.' ∧ c ≠ 'e' ∧ c ≠ 'E'

lemma digits_append {ds rest : List Char} (hds : ∀ c ∈ ds, c.isDigit)
    (hrest : ∀ c ∈ rest.head?, c.isDigit = false) : digits (ds ++ rest) = (ds, rest) := by
  unfold digits
  rw [List.takeWhile_append_of_pos hds, List.dropWhile_append_of_pos hds]
  cases rest with
  | nil => simp
  | cons c rest => simp [hrest c rfl]

/-- The exponent of a numeral is read back. -/
theorem exponent?_exponentChars {n : Numeral} (hn : n.WellFormed) {rest : List Char}
    (hrest : Delimited rest) :
    exponent? (Numeral.exponentChars n.exponent ++ rest) = some (n.exponent, rest) := by
  have hdelim : ∀ c ∈ rest.head?, c.isDigit = false := fun c hc => (hrest c hc).1
  rcases he : n.exponent with _ | ⟨negative, ds⟩
  · cases rest with
    | nil => rfl
    | cons c rest =>
      obtain ⟨-, -, he, hE⟩ := hrest c rfl
      simp [Numeral.exponentChars, exponent?, he, hE]
  · have hds := digits_append (hn.exponent_digits _ he) hdelim
    have hne : ds ≠ [] := hn.exponent_ne_nil _ he
    cases negative <;> simp [Numeral.exponentChars, exponent?, exponentSign, hds, hne]

lemma head?_exponentChars {e : Option (Bool × List Char)} {rest : List Char}
    (hrest : Delimited rest) :
    ∀ c ∈ (Numeral.exponentChars e ++ rest).head?, c.isDigit = false ∧ c ≠ '.' := by
  rcases e with _ | ⟨_ | _, ds⟩
  · exact fun c hc => ⟨(hrest c hc).1, (hrest c hc).2.1⟩
  · rintro c ⟨⟩
    decide
  · rintro c ⟨⟩
    decide

/-- The fraction of a numeral is read back, and its exponent is left. -/
theorem fraction?_append {n : Numeral} (hn : n.WellFormed) {rest : List Char}
    (hrest : ∀ c ∈ rest.head?, c.isDigit = false ∧ c ≠ '.') :
    fraction? ((if n.fraction = [] then [] else '.' :: n.fraction) ++ rest)
      = some (n.fraction, rest) := by
  by_cases hf : n.fraction = []
  · rw [if_pos hf, hf, List.nil_append]
    cases rest with
    | nil => rfl
    | cons c rest =>
      unfold fraction?
      split
      · rename_i heq
        exact absurd (List.cons.inj heq).1 (hrest c rfl).2
      · rfl
  · have hds := digits_append hn.fraction_digits fun c hc => (hrest c hc).1
    simp [hf, fraction?, hds]

lemma unsigned?_append {n : Numeral} (hn : n.WellFormed) {rest : List Char}
    (hrest : Delimited rest) :
    unsigned? n.negative
        (n.whole ++ ((if n.fraction = [] then [] else '.' :: n.fraction)
          ++ (Numeral.exponentChars n.exponent ++ rest)))
      = some (n, rest) := by
  have hexp := head?_exponentChars (e := n.exponent) hrest
  have hwhole : ∀ c ∈ ((if n.fraction = [] then [] else '.' :: n.fraction)
      ++ (Numeral.exponentChars n.exponent ++ rest)).head?, c.isDigit = false := by
    split_ifs
    · exact fun c hc => (hexp c hc).1
    · rintro c ⟨⟩
      decide
  obtain ⟨d, ds, hds⟩ := List.exists_cons_of_ne_nil hn.whole_ne_nil
  have hlead : ¬ (d = '0' ∧ ds ≠ []) := fun ⟨hd, hne⟩ =>
    hne (List.cons.inj (hds ▸ hn.no_leading_zero (by rw [hds, hd]; rfl))).2
  rw [unsigned?, digits_append hn.whole_digits hwhole, hds]
  simp only [if_neg hlead, fraction?_append hn hexp, exponent?_exponentChars hn hrest, ← hds]

/-- No token but a numeral starts with a digit. -/
theorem lexeme_digit {d : Char} (hd : d.isDigit) (cs : List Char) :
    lexeme (d :: cs) = (unsigned? false (d :: cs)).map fun (n, rest) => (.num n, rest) := by
  unfold lexeme
  split <;> simp_all

/-- A numeral is read back, if what follows cannot continue it. -/
theorem lexeme_numeral {n : Numeral} (hn : n.WellFormed) {rest : List Char}
    (hrest : Delimited rest) : lexeme (n.chars ++ rest) = some (.num n, rest) := by
  have hread := unsigned?_append hn hrest
  simp only [Numeral.chars, List.append_assoc]
  rcases hneg : n.negative with _ | _
  · obtain ⟨d, ds, hds⟩ := List.exists_cons_of_ne_nil hn.whole_ne_nil
    rw [hneg, hds, List.cons_append] at hread
    rw [hds, if_neg Bool.false_ne_true, List.nil_append, List.cons_append,
      lexeme_digit (hn.whole_digits d (by simp [hds])), hread]
    rfl
  · rw [hneg] at hread
    simp [lexeme, hread]

lemma lexeme_blank {c : Char} (hc : isBlank c) (cs : List Char) : lexeme (c :: cs) = none := by
  simp only [isBlank, Bool.or_eq_true, beq_iff_eq] at hc
  rcases hc with ((rfl | rfl) | rfl) | rfl <;> rfl

end Token

namespace Reader

lemma run_blank (r : Reader) {c : Char} (hc : Token.isBlank c) (cs : List Char) :
    run r (c :: cs) = run r cs := by
  rw [run, if_pos hc]

lemma run_newline (r : Reader) (level : ℕ) (cs : List Char) :
    run r (newline level ++ cs) = run r cs := by
  have hblanks : ∀ k, run r (List.replicate k ' ' ++ cs) = run r cs := by
    intro k
    induction k with
    | zero => rfl
    | succ k ih => rw [List.replicate_succ, List.cons_append, run_blank r rfl, ih]
  rw [newline, List.cons_append, run_blank r rfl, hblanks]

/-- One token is read and the reader goes on behind it. -/
theorem run_lexeme {r r' : Reader} {cs rest : List Char} {t : Token}
    (ht : Token.lexeme cs = some (t, rest)) (hstep : r.step t = some r') :
    run r cs = run r' rest := by
  cases cs with
  | nil => exact absurd ht (by simp [Token.lexeme, Token.unsigned?, Token.digits])
  | cons c cs =>
    have hblank : ¬ Token.isBlank c := fun hc => by simp [Token.lexeme_blank hc] at ht
    rw [run, if_neg hblank]
    split
    · simp_all
    · simp_all

/-- A value that starts here is for the place inside `outer`. The state behind an open
bracket is such a state too, as long as the list does not end at once. -/
def Expects (r : Reader) (outer : List Frame) : Prop :=
  ∀ t, t ≠ .closeList → r.step t = start outer t

lemma expects_value (outer : List Frame) : (Reader.value outer).Expects outer :=
  fun _ _ => rfl

lemma expects_item (outer : List Frame) : (Reader.item outer).Expects (.list [] :: outer) := by
  intro t ht
  cases t with
  | closeList => exact absurd rfl ht
  | _ => rfl

/-- The state asks for the name of a field, after the fields in `before`. -/
def ExpectsName (r : Reader) (before : List (Literal × Json)) (outer : List Frame) : Prop :=
  ∀ label, r.step (.str label) = some (.colon before label outer)

lemma expectsName_field (outer : List Frame) : (Reader.field outer).ExpectsName [] outer :=
  fun _ => rfl

lemma expectsName_name (before : List (Literal × Json)) (outer : List Frame) :
    (Reader.name before outer).ExpectsName before outer :=
  fun _ => rfl

/-- Wherever the pretty text of a value stands, the reader gets past it with that value
complete. -/
def Passes (j : Json) : Prop :=
  ∀ (level : ℕ) (r : Reader) (outer : List Frame) (rest : List Char),
    r.Expects outer → Token.Delimited rest →
      run r (prettyChars level j ++ rest) = run (.done j outer) rest

lemma delimited_newline (level : ℕ) (rest : List Char) :
    Token.Delimited (newline level ++ rest) := by
  rintro c ⟨⟩
  decide

lemma delimited_comma (rest : List Char) : Token.Delimited (',' :: rest) := by
  rintro c ⟨⟩
  decide

/-- Past the items of a list that has the items of `before` already, and past its end. -/
theorem run_prettyItems {items : List Json} (hne : items ≠ [])
    (hitems : ∀ j ∈ items, Passes j) (level closing : ℕ) {r : Reader} {before : List Json}
    {outer : List Frame} (hr : r.Expects (.list before :: outer)) (rest : List Char) :
    run r (prettyItems level items ++ (newline closing ++ ']' :: rest))
      = run (.done (.arr (before.reverse ++ items)) outer) rest := by
  induction items generalizing r before with
  | nil => exact absurd rfl hne
  | cons j items ih =>
    have hj := hitems j List.mem_cons_self
    cases items with
    | nil =>
      rw [prettyItems, List.append_assoc, run_newline,
        hj level r _ _ hr (delimited_newline _ _), run_newline,
        run_lexeme (t := .closeList) rfl rfl, List.reverse_cons]
    | cons j' items =>
      simp only [prettyItems, List.append_assoc, List.cons_append]
      rw [run_newline, hj level r _ _ hr (delimited_comma _),
        run_lexeme (t := .comma) rfl rfl,
        ih (by simp) (fun i hi => hitems i (List.mem_cons_of_mem _ hi)) (expects_value _)]
      simp

/-- Past the fields of an object that has the fields of `before` already, and past its
end. -/
theorem run_prettyFields {fields : List (Literal × Json)} (hne : fields ≠ [])
    (hfields : ∀ f ∈ fields, Passes f.2) (level closing : ℕ) {r : Reader}
    {before : List (Literal × Json)} {outer : List Frame} (hr : r.ExpectsName before outer)
    (rest : List Char) :
    run r (prettyFields level fields ++ (newline closing ++ '\x7d' :: rest))
      = run (.done (.obj (before.reverse ++ fields)) outer) rest := by
  induction fields generalizing r before with
  | nil => exact absurd rfl hne
  | cons f fields ih =>
    obtain ⟨label, j⟩ := f
    -- The last field and the others differ only in what comes after the value.
    have hj : ∀ after, Token.Delimited after →
        run r (newline level ++ (label.chars ++ ':' :: ' ' :: (prettyChars level j ++ after)))
          = run (.done j (.object before label :: outer)) after := by
      intro after hafter
      rw [run_newline, run_lexeme (Token.lexeme_literal ..) (hr label),
        run_lexeme (t := .colon) rfl rfl, run_blank _ rfl]
      exact hfields _ List.mem_cons_self level _ _ _ (expects_value _) hafter
    cases fields with
    | nil =>
      simp only [prettyFields, List.append_assoc, List.cons_append]
      rw [hj _ (delimited_newline _ _), run_newline, run_lexeme (t := .closeObject) rfl rfl,
        List.reverse_cons]
    | cons f' fields =>
      simp only [prettyFields, List.append_assoc, List.cons_append]
      rw [hj _ (delimited_comma _), run_lexeme (t := .comma) rfl rfl,
        ih (by simp) (fun i hi => hfields i (List.mem_cons_of_mem _ hi)) (expectsName_name _ _)]
      simp

end Reader

/-- Every numeral of a tree has the shape of a JSON number. -/
inductive WellFormed : Json → Prop
  | null : WellFormed .null
  | bool (b : Bool) : WellFormed (.bool b)
  | num {n : Numeral} (hn : n.WellFormed) : WellFormed (.num n)
  | str (s : Literal) : WellFormed (.str s)
  | arr {items : List Json} (hitems : ∀ j ∈ items, WellFormed j) : WellFormed (.arr items)
  | obj {fields : List (Literal × Json)} (hfields : ∀ f ∈ fields, WellFormed f.2) :
    WellFormed (.obj fields)

/-- The reader gets past every well-formed tree, by induction on the tree. -/
theorem WellFormed.passes {j : Json} (h : j.WellFormed) : Reader.Passes j := by
  induction h with
  | null =>
    intro level r outer rest hr _
    exact Reader.run_lexeme (t := .null) rfl (hr .null (by simp))
  | bool b =>
    intro level r outer rest hr _
    cases b <;> exact Reader.run_lexeme rfl (hr (.bool _) (by simp))
  | num hn =>
    intro level r outer rest hr hrest
    exact Reader.run_lexeme (Token.lexeme_numeral hn hrest) (hr (.num _) (by simp))
  | str s =>
    intro level r outer rest hr _
    exact Reader.run_lexeme (Token.lexeme_literal s rest) (hr (.str s) (by simp))
  | @arr items _ ih =>
    intro level r outer rest hr _
    have hopen : r.step .openList = some (.item outer) := hr .openList (by simp)
    cases items with
    | nil =>
      rw [Reader.run_lexeme (t := .openList) rfl hopen]
      exact Reader.run_lexeme (t := .closeList) rfl rfl
    | cons j items =>
      simp only [prettyChars, List.append_assoc, List.cons_append]
      rw [Reader.run_lexeme (t := .openList) rfl hopen]
      exact Reader.run_prettyItems (by simp) ih _ _ (Reader.expects_item outer) rest
  | @obj fields _ ih =>
    intro level r outer rest hr _
    have hopen : r.step .openObject = some (.field outer) := hr .openObject (by simp)
    cases fields with
    | nil =>
      rw [Reader.run_lexeme (t := .openObject) rfl hopen]
      exact Reader.run_lexeme (t := .closeObject) rfl rfl
    | cons f fields =>
      simp only [prettyChars, List.append_assoc, List.cons_append]
      rw [Reader.run_lexeme (t := .openObject) rfl hopen]
      exact Reader.run_prettyFields (by simp) ih _ _ (Reader.expectsName_field outer) rest

/-- A well-formed tree is read back from its pretty text. -/
theorem WellFormed.parse?_pretty {j : Json} (h : j.WellFormed) : parse? j.pretty = some j := by
  have hpass := h.passes 0 (.value []) [] [] (Reader.expects_value []) (by simp [Token.Delimited])
  rw [List.append_nil] at hpass
  rw [parse?, pretty, String.toList_ofList, hpass, Reader.run]

end ScriptGraph.Json
