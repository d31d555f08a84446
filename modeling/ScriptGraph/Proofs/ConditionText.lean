import ScriptGraph.Proofs.ScriptText

/-!
# Conditions come back from their text

Operators are told from operands by their characters, and not by where they begin: some
operators begin with others, but no operand has a character of an operator. So an operator
is all of a term's operator characters, however many there are. A comma is in no term, and only
several terms have one between them. Hence the text of a condition says what its terms are, and
how they are joined if there is anything to join.
-/
namespace ScriptGraph

open Script (upTo upTo_append)

/-- The characters that operators are made of. -/
def Comparison.isMark (c : Char) : Bool := ['<', '>', '=', '!'].contains c

lemma Comparison.isMark_of_mem_text (o : Comparison) :
    o.text.toList ≠ [] ∧ ∀ c ∈ o.text.toList, isMark c = true ∧ c ≠ ',' := by
  cases o <;> simp [text, isMark]

namespace Term

/-- The operand has neither a character of an operator nor a comma. -/
def CleanOperand (operand : String) : Prop :=
  ∀ c ∈ operand.toList, c ∉ ['<', '>', '=', '!', ',']

def Clean (t : Term) : Prop := CleanOperand t.left ∧ CleanOperand t.right

lemma CleanOperand.isMark {operand : String} (h : CleanOperand operand) :
    ∀ c ∈ operand.toList, Comparison.isMark c = false := by
  intro c hc
  have hclean := h c hc
  simp_all [Comparison.isMark]

lemma CleanOperand.notMem {operand : String} (h : CleanOperand operand) :
    ',' ∉ operand.toList := by
  intro hc
  exact h ',' hc (by decide)

/-- Reads a term: what is before the operator characters, these, and what is behind them. -/
def read? (cs : List Char) : Option Term :=
  let (left, rest) := upTo Comparison.isMark cs
  let (operator, right) := rest.span Comparison.isMark
  (Comparison.ofText? (.ofList operator)).map fun o => ⟨.ofList left, o, .ofList right⟩

lemma toList_text (t : Term) :
    t.text.toList = t.left.toList ++ (t.operator.text.toList ++ t.right.toList) := by
  simp [text]

lemma span_operator (o : Comparison) {operand : String} (h : CleanOperand operand) :
    (o.text.toList ++ operand.toList).span Comparison.isMark =
      (o.text.toList, operand.toList) := by
  have hmarks : ∀ c ∈ o.text.toList, Comparison.isMark c = true :=
    fun c hc => (o.isMark_of_mem_text.2 c hc).1
  rw [List.span_eq_takeWhile_dropWhile, List.takeWhile_append_of_pos hmarks,
    List.dropWhile_append_of_pos hmarks]
  cases hoperand : operand.toList with
  | nil => simp
  | cons c rest =>
    have hc : Comparison.isMark c = false := h.isMark c (by simp [hoperand])
    simp [hc]

/-- A clean term is read back from its text. -/
theorem read?_text {t : Term} (h : t.Clean) : read? t.text.toList = some t := by
  obtain ⟨hleft, hright⟩ := h
  have hspan := span_operator t.operator hright
  obtain ⟨hne, hmarks⟩ := t.operator.isMark_of_mem_text
  obtain ⟨mark, marks, hoperator⟩ := List.exists_cons_of_ne_nil hne
  have hmark : Comparison.isMark mark = true := (hmarks mark (by simp [hoperator])).1
  have hupTo := upTo_append hleft.isMark hmark (marks ++ t.right.toList)
  rw [← List.cons_append, ← hoperator, ← toList_text] at hupTo
  simp only [read?, hupTo, hspan, String.ofList_toList, Comparison.ofText?_text, Option.map_some]

lemma Clean.notMem {t : Term} (h : t.Clean) : ',' ∉ t.text.toList := by
  have hoperator : ',' ∉ t.operator.text.toList :=
    fun hc => (t.operator.isMark_of_mem_text.2 ',' hc).2 rfl
  simp [toList_text, h.1.notMem, h.2.notMem, hoperator]

lemma text_ne_nil (t : Term) : t.text.toList ≠ [] := by
  simp [toList_text, t.operator.isMark_of_mem_text.1]

end Term

namespace Condition

variable {c d : Condition}

def Clean (c : Condition) : Prop := ∀ t ∈ c.terms, t.Clean

/-- Reads a condition. Without a comma it is a single term, or nothing. How terms are joined is
left open if there is nothing to join. -/
def read? (text : String) : Option (List Term × Option Logic) :=
  match text.toList.splitOn ',' with
  | [] => none
  | [word] => if word = [] then some ([], none) else (Term.read? word).map fun t => ([t], none)
  | word :: words => do
    let logic ← Logic.ofText? (.ofList word)
    let terms ← words.mapM Term.read?
    return (terms, some logic)

/-- How the terms of a condition are joined, if there are several. -/
def joint? (c : Condition) : Option Logic := if 2 ≤ c.terms.length then some c.logic else none

/-- What stands between the commas of a condition's text. -/
def words (c : Condition) : List (List Char) :=
  match c.terms with
  | [] => [[]]
  | [t] => [t.text.toList]
  | ts => c.logic.text.toList :: ts.map fun t => t.text.toList

lemma toList_text (c : Condition) : c.text.toList = [','].intercalate c.words := by
  obtain ⟨terms, logic⟩ := c
  match terms with
  | [] => rfl
  | [t] => simp [text, words]
  | t :: u :: rest =>
    rw [text, words, String.toList_intercalate, List.map_cons, List.map_map]
    rfl

lemma Clean.splitOn_text (h : c.Clean) : c.text.toList.splitOn ',' = c.words := by
  have hlogic : ',' ∉ c.logic.text.toList := by
    cases c.logic <;> simp [Logic.text]
  rw [toList_text]
  refine List.splitOn_intercalate ',' ?_ ?_
  · intro word hword
    unfold words at hword
    split at hword
    · simp_all
    · rename_i t hterms
      obtain rfl := List.mem_singleton.1 hword
      exact (h t (by simp [hterms])).notMem
    · rcases List.mem_cons.1 hword with rfl | hword
      · exact hlogic
      · obtain ⟨t, ht, rfl⟩ := List.mem_map.1 hword
        exact (h t ht).notMem
  · unfold words
    split <;> simp

/-- A clean condition is read back from its text. -/
theorem read?_text (h : c.Clean) : read? c.text = some (c.terms, c.joint?) := by
  rw [read?, h.splitOn_text]
  obtain ⟨terms, logic⟩ := c
  match terms with
  | [] => rfl
  | [t] =>
    have ht : t.Clean := h t List.mem_cons_self
    simp [words, joint?, t.text_ne_nil, Term.read?_text ht]
  | t :: u :: rest =>
    have hterms : ((t :: u :: rest).map fun t => t.text.toList).mapM Term.read? =
        some (t :: u :: rest) := by
      refine (Decoder.mapM_map (f := id) fun t ht => Term.read?_text (h t ht)).trans ?_
      rw [List.map_id]
    have hjoint : joint? ⟨t :: u :: rest, logic⟩ = some logic := if_pos (by simp)
    change (Logic.ofText? (.ofList logic.text.toList) >>= fun logic =>
      ((t :: u :: rest).map fun t => t.text.toList).mapM Term.read? >>= fun terms =>
        some (terms, some logic)) = some (t :: u :: rest, joint? ⟨t :: u :: rest, logic⟩)
    rw [hterms, hjoint]
    simp

/-- The text of a clean condition says what its terms are, with their operands and operators and
in their order, and how they are joined if there are several; and it says nothing else. -/
theorem text_eq_text_iff (c d : Condition) (hc : c.Clean) (hd : d.Clean) :
    c.text = d.text ↔ c.terms = d.terms ∧ (2 ≤ c.terms.length → c.logic = d.logic) := by
  constructor
  · intro htext
    have hread := read?_text hc
    rw [htext, read?_text hd] at hread
    obtain ⟨hterms, hjoint⟩ := Prod.mk.inj (Option.some.inj hread)
    refine ⟨hterms.symm, fun hseveral => ?_⟩
    rw [joint?, joint?, hterms, if_pos hseveral, if_pos hseveral] at hjoint
    exact (Option.some.inj hjoint).symm
  · rintro ⟨hterms, hlogic⟩
    obtain ⟨terms, logic⟩ := c
    obtain ⟨terms', logic'⟩ := d
    obtain rfl : terms = terms' := hterms
    match terms with
    | [] => rfl
    | [t] => rfl
    | t :: u :: rest =>
      obtain rfl : logic = logic' := hlogic (by simp)
      rfl

/-- Two terms whose operands are empty or spelled like logical operators, and whose operators begin
with the same character. -/
def muddle : List Term := [⟨"AND", .greaterOrEqual, ""⟩, ⟨"", .greater, "XOR"⟩]

/-- The same terms with their operators the other way round. -/
def muddleTwin : List Term := [⟨"AND", .greater, ""⟩, ⟨"", .greaterOrEqual, "XOR"⟩]

theorem text_eq_text_iff_muddle :
    Clean ⟨muddle, .or⟩ ∧ Clean ⟨muddleTwin, .or⟩ ∧ Clean ⟨muddle, .xor⟩ ∧
      Clean ⟨muddle.take 1, .or⟩ ∧ Clean ⟨muddle.take 1, .xor⟩ ∧
      text ⟨muddle, .or⟩ = "OR,AND>=,>XOR" ∧ text ⟨muddleTwin, .or⟩ = "OR,AND>,>=XOR" ∧
      text ⟨muddle, .or⟩ ≠ text ⟨muddleTwin, .or⟩ ∧ text ⟨muddle, .or⟩ ≠ text ⟨muddle, .xor⟩ ∧
      text ⟨muddle.take 1, .or⟩ = text ⟨muddle.take 1, .xor⟩ := by
  have hmuddle : ∀ logic, Clean ⟨muddle, logic⟩ := by
    simp [Clean, muddle, Term.Clean, Term.CleanOperand]
  have htwin : ∀ logic, Clean ⟨muddleTwin, logic⟩ := by
    simp [Clean, muddleTwin, Term.Clean, Term.CleanOperand]
  have hsingle : ∀ logic, Clean ⟨muddle.take 1, logic⟩ :=
    fun logic t ht => hmuddle logic t (List.mem_of_mem_take ht)
  refine ⟨hmuddle _, htwin _, hmuddle _, hsingle _, hsingle _, by cbv, by cbv, ?_, ?_, ?_⟩
  · rw [Ne, text_eq_text_iff _ _ (hmuddle _) (htwin _)]
    decide
  · rw [Ne, text_eq_text_iff _ _ (hmuddle _) (hmuddle _)]
    decide
  · rw [text_eq_text_iff _ _ (hsingle _) (hsingle _)]
    decide

end Condition

end ScriptGraph
