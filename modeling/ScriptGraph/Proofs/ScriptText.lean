import ScriptGraph.Proofs.ElementText
import ScriptGraph.Script.Printer

/-!
# Scripts come back from their text

Slashes and colons end statements and divide their parts at every depth, and nothing says
how deep a text has come. It can be read all the same: no statement starts with a colon or a
slash, so the character behind a list of statements decides what the list was. Here is a
reader that goes by these characters. It gives back every clean script from its text, and
so no two clean scripts have one text.
-/
namespace ScriptGraph.Script

/-! ### Clean scripts -/

/-- The name ends where a parenthesis, a colon or a slash comes. -/
def CleanName (name : String) : Prop := ∀ c ∈ name.toList, c ≠ '(' ∧ c ≠ ':' ∧ c ≠ '/'

/-- Each argument ends where a comma or the parenthesis comes, and a single empty argument
is not mistaken for none. -/
def CleanArguments (arguments : List String) : Prop :=
  arguments ≠ [""] ∧ ∀ a ∈ arguments, ',' ∉ a.toList ∧ ')' ∉ a.toList

def CleanCondition (condition : String) : Prop := ')' ∉ condition.toList

def Invocation.Clean (i : Invocation) : Prop := CleanName i.name ∧ CleanArguments i.arguments

def Header.Clean (h : Header) : Prop :=
  CleanName h.name ∧ ∀ arguments ∈ h.arguments, CleanArguments arguments

namespace Statement

mutual

/-- All names, arguments and conditions are clean, at every depth, and no call is named like
a continue-if. -/
def Clean : Statement → Prop
  | .call i => i.Clean ∧ i.name ≠ "CONTINUEIF"
  | .assign _ i => i.Clean
  | .conditional condition onTrue onFalse =>
    CleanCondition condition ∧ CleanList onTrue ∧ CleanBranch onFalse
  | .continueIf condition => CleanCondition condition

def CleanList : List Statement → Prop
  | [] => True
  | s :: rest => Clean s ∧ CleanList rest

def CleanBranch : Option (List Statement) → Prop
  | none => True
  | some statements => CleanList statements

end

end Statement

end Script

def Script.Clean (s : Script) : Prop := s.header.Clean ∧ Script.Statement.CleanList s.statements

namespace Script

/-! ### The reader -/

/-- A reader gives what it reads and the characters behind it. -/
abbrev Reader (α : Type) := List Char → Option (α × List Char)

/-- What no name contains. -/
def isMark (c : Char) : Bool := c == '(' || c == ':' || c == '/'

/-- The characters before the first one that stops, and those from there on. -/
def upTo (stop : Char → Bool) (cs : List Char) : List Char × List Char :=
  cs.span fun c => !stop c

/-- What stands before the closing parenthesis. -/
def enclosed? : Reader (List Char) := fun cs =>
  match upTo (· == ')') cs with
  | (inside, _ :: rest) => some (inside, rest)
  | (_, []) => none

/-- A name and what stands in the parentheses behind it. -/
def invoked? : Reader (String × List Char) := fun cs =>
  match upTo isMark cs with
  | (name, '(' :: rest) =>
    (enclosed? rest).map fun (inside, rest) => ((String.ofList name, inside), rest)
  | _ => none

/-- The arguments that stand in parentheses. -/
def argumentsOf (inside : List Char) : List String :=
  if inside = [] then [] else (inside.splitOn ',').map String.ofList

def slash? : List Char → Option (List Char)
  | '/' :: rest => some rest
  | _ => none

/-- A false branch, if there is a colon in front of it. -/
def branch? (statements : Reader (List Statement)) : Reader (Option (List Statement))
  | ':' :: rest => (statements rest).map fun (onFalse, rest) => (some onFalse, rest)
  | rest => some (none, rest)

/-- A slot and what is assigned to it. -/
def assignment? : Reader Statement := fun cs =>
  match upTo isMark cs with
  | (word, ':' :: rest) => do
    let slot ← Slot.ofText? (String.ofList word)
    let ((name, inside), rest) ← invoked? rest
    let rest ← slash? rest
    return (.assign slot ⟨name, argumentsOf inside⟩, rest)
  | _ => none

/-- The branches of a conditional, of which the condition has been read. -/
def branches? (statements : Reader (List Statement)) (condition : String) : Reader Statement :=
  fun cs => do
    let (onTrue, rest) ← statements cs
    let (onFalse, rest) ← branch? statements rest
    let rest ← slash? rest
    return (.conditional condition onTrue onFalse, rest)

/-- A statement that starts with a name, or with the keyword of a condition. -/
def named? (statements : Reader (List Statement)) : Reader Statement := fun cs => do
  match ← invoked? cs with
  | (("IF", inside), ':' :: rest) => branches? statements (String.ofList inside) rest
  | ((name, inside), rest) =>
    let rest ← slash? rest
    if name = "CONTINUEIF" then return (.continueIf (String.ofList inside), rest)
    else return (.call ⟨name, argumentsOf inside⟩, rest)

/-- One statement. Only an assignment has a colon before the first parenthesis. -/
def statement? (statements : Reader (List Statement)) : Reader Statement := fun cs =>
  if (upTo isMark cs).2.head? = some ':' then assignment? cs else named? statements cs

/-- No statement starts here: the text ends, or goes on with a colon or a slash. -/
def closes : List Char → Bool
  | [] => true
  | c :: _ => c == ':' || c == '/'

/-- Statements as long as there are any. Every statement makes the text shorter, so one more
than its length is enough of a budget. -/
def statements? : ℕ → Reader (List Statement)
  | 0, _ => none
  | budget + 1, cs =>
    if closes cs then some ([], cs)
    else do
      let (s, rest) ← statement? (statements? budget) cs
      let (others, rest) ← statements? budget rest
      return (s :: others, rest)

/-- What every script starts with. -/
def envelope : List Char := "Modular/".toList ++ "TIMING:".toList

/-- The header behind the envelope. -/
def header? : Reader Header := fun cs =>
  match upTo isMark cs with
  | (name, '(' :: rest) => do
    let (inside, rest) ← enclosed? rest
    let rest ← slash? rest
    return (⟨String.ofList name, some (argumentsOf inside)⟩, rest)
  | (name, '/' :: rest) => some (⟨String.ofList name, none⟩, rest)
  | _ => none

end Script

/-- Reads the text of a script. -/
def Script.read? (text : String) : Option Script :=
  if text.toList.take Script.envelope.length = Script.envelope then do
    let (header, rest) ← Script.header? (text.toList.drop Script.envelope.length)
    match ← Script.statements? (rest.length + 1) rest with
    | (statements, []) => return ⟨header, statements⟩
    | _ => none
  else none

namespace Script

/-! ### Reading what was written -/

lemma upTo_append {stop : Char → Bool} {word : List Char} {c : Char}
    (hword : ∀ x ∈ word, stop x = false) (hc : stop c = true) (rest : List Char) :
    upTo stop (word ++ c :: rest) = (word, c :: rest) := by
  have hkeep : ∀ x ∈ word, (!stop x) = true := by simpa using hword
  rw [upTo, List.span_eq_takeWhile_dropWhile, List.takeWhile_append_of_pos hkeep,
    List.dropWhile_append_of_pos hkeep]
  simp [hc]

lemma CleanName.isMark {name : String} (h : CleanName name) :
    ∀ c ∈ name.toList, isMark c = false := by
  intro c hc
  simpa [Script.isMark, and_assoc] using h c hc

lemma enclosed?_append {inside : List Char} (h : ')' ∉ inside) (rest : List Char) :
    enclosed? (inside ++ ')' :: rest) = some (inside, rest) := by
  have hinside : ∀ x ∈ inside, (x == ')') = false := by
    intro x hx
    simpa using ne_of_mem_of_not_mem hx h
  rw [enclosed?, upTo_append hinside rfl]

lemma invoked?_append {name : String} {inside : List Char} (hname : CleanName name)
    (hinside : ')' ∉ inside) (rest : List Char) :
    invoked? (name.toList ++ '(' :: (inside ++ ')' :: rest)) = some ((name, inside), rest) := by
  rw [invoked?, upTo_append hname.isMark rfl]
  simp [enclosed?_append hinside]

lemma notMem_intercalate {c sep : Char} (hc : c ≠ sep) {words : List (List Char)}
    (h : ∀ word ∈ words, c ∉ word) : c ∉ [sep].intercalate words := by
  induction words with
  | nil => simp
  | cons word rest ih =>
    cases rest with
    | nil => simpa using h
    | cons word' rest =>
      obtain ⟨hword, hrest⟩ := List.forall_mem_cons.1 h
      rw [List.intercalate_cons_cons]
      simp [hword, hc, ih hrest]

/-- The characters between the parentheses of a call. -/
def argumentsInside (arguments : List String) : List Char :=
  (String.intercalate "," arguments).toList

lemma CleanArguments.notMem {arguments : List String} (h : CleanArguments arguments) :
    ')' ∉ argumentsInside arguments := by
  rw [argumentsInside, String.toList_intercalate]
  exact notMem_intercalate (by decide) (List.forall_mem_map.2 fun a ha => (h.2 a ha).2)

/-- Arguments are found between the commas. -/
lemma CleanArguments.argumentsOf {arguments : List String} (h : CleanArguments arguments) :
    argumentsOf (argumentsInside arguments) = arguments := by
  by_cases hnil : arguments = []
  · simp [hnil, argumentsInside, Script.argumentsOf]
  have hsplit : (argumentsInside arguments).splitOn ',' = arguments.map String.toList := by
    rw [argumentsInside, String.toList_intercalate]
    refine List.splitOn_intercalate ',' ?_ (by simpa using hnil)
    exact List.forall_mem_map.2 fun a ha => (h.2 a ha).1
  have hne : argumentsInside arguments ≠ [] := by
    intro hempty
    rw [hempty, List.splitOn_nil] at hsplit
    obtain ⟨a, rfl, ha⟩ := List.map_eq_singleton_iff.1 hsplit.symm
    exact h.1 (by simpa using ha)
  rw [Script.argumentsOf, if_neg hne, hsplit, List.map_map]
  simp

lemma Invocation.toList_text (i : Invocation) (rest : List Char) :
    i.text.toList ++ rest =
      i.name.toList ++ '(' :: (argumentsInside i.arguments ++ ')' :: rest) := by
  simp [Invocation.text, argumentsText, argumentsInside]

lemma invoked?_text {i : Invocation} (h : i.Clean) (rest : List Char) :
    invoked? (i.text.toList ++ rest) = some ((i.name, argumentsInside i.arguments), rest) := by
  rw [Invocation.toList_text]
  exact invoked?_append h.1 h.2.notMem rest

lemma slot_isMark (slot : Slot) : ∀ c ∈ slot.text.toList, isMark c = false := by
  simp [Slot.text, Slot.stem, isMark]

lemma toList_conditional (condition : String) (onTrue : List Statement)
    (onFalse : Option (List Statement)) (rest : List Char) :
    (Statement.conditional condition onTrue onFalse).text.toList ++ rest =
      "IF".toList ++ '(' :: (condition.toList ++ ')' :: ':' ::
        ((Statement.textList onTrue).toList ++
          ((Statement.textBranch onFalse).toList ++ '/' :: rest))) := by
  simp [Statement.text]

section Statement

variable {statements : Reader (List Statement)}

lemma statement?_named {word : List Char} (hword : ∀ c ∈ word, isMark c = false)
    (rest : List Char) :
    statement? statements (word ++ '(' :: rest) = named? statements (word ++ '(' :: rest) := by
  rw [statement?, upTo_append hword rfl]
  rfl

lemma statement?_call {i : Invocation} (h : i.Clean) (hname : i.name ≠ "CONTINUEIF")
    (rest : List Char) :
    statement? statements ((Statement.call i).text.toList ++ rest) = some (.call i, rest) := by
  have htext : (Statement.call i).text.toList ++ rest = i.text.toList ++ '/' :: rest := by
    simp [Statement.text]
  have hread := invoked?_text h ('/' :: rest)
  rw [Invocation.toList_text] at hread
  rw [htext, Invocation.toList_text, statement?_named h.1.isMark, named?, hread]
  simp [slash?, hname, h.2.argumentsOf]

lemma statement?_assign {slot : Slot} {i : Invocation} (h : i.Clean) (rest : List Char) :
    statement? statements ((Statement.assign slot i).text.toList ++ rest) =
      some (.assign slot i, rest) := by
  have htext : (Statement.assign slot i).text.toList ++ rest =
      slot.text.toList ++ ':' :: (i.text.toList ++ '/' :: rest) := by
    simp [Statement.text]
  have hslot := upTo_append (c := ':') (slot_isMark slot) rfl (i.text.toList ++ '/' :: rest)
  rw [htext, statement?, hslot, List.head?_cons, if_pos rfl, assignment?, hslot]
  simp [invoked?_text h, slash?, h.2.argumentsOf]

lemma statement?_continueIf {condition : String} (h : CleanCondition condition)
    (rest : List Char) :
    statement? statements ((Statement.continueIf condition).text.toList ++ rest) =
      some (.continueIf condition, rest) := by
  have htext : (Statement.continueIf condition).text.toList ++ rest =
      "CONTINUEIF".toList ++ '(' :: (condition.toList ++ ')' :: '/' :: rest) := by
    simp [Statement.text]
  have hname : CleanName "CONTINUEIF" := by simp [CleanName]
  rw [htext, statement?_named hname.isMark, named?, invoked?_append hname h]
  simp [slash?]

lemma statement?_conditional {condition : String} {onTrue : List Statement}
    {onFalse : Option (List Statement)} (h : CleanCondition condition) {rest : List Char}
    (hread : branches? statements condition ((Statement.textList onTrue).toList ++
      ((Statement.textBranch onFalse).toList ++ '/' :: rest)) =
        some (.conditional condition onTrue onFalse, rest)) :
    statement? statements ((Statement.conditional condition onTrue onFalse).text.toList ++ rest) =
      some (.conditional condition onTrue onFalse, rest) := by
  have hname : CleanName "IF" := by simp [CleanName]
  rw [toList_conditional, statement?_named hname.isMark, named?, invoked?_append hname h]
  simpa using hread

/-- The reader gives clean statements back if no statement follows them, as long as the text
from there on is shorter than the bound. -/
def Reads (statements : Reader (List Statement)) (bound : ℕ) : Prop :=
  ∀ xs rest, Statement.CleanList xs → closes rest = true →
    ((Statement.textList xs).toList ++ rest).length < bound →
    statements ((Statement.textList xs).toList ++ rest) = some (xs, rest)

/-- Behind the true branch comes a colon or a slash, and which of them says whether there is
a false branch. -/
lemma Reads.branches? {bound : ℕ} (hreads : Reads statements bound) {onTrue : List Statement}
    {onFalse : Option (List Statement)} (htrue : Statement.CleanList onTrue)
    (hfalse : Statement.CleanBranch onFalse) (condition : String) {rest : List Char}
    (hbound : ((Statement.textList onTrue).toList ++
      ((Statement.textBranch onFalse).toList ++ '/' :: rest)).length < bound) :
    Script.branches? statements condition ((Statement.textList onTrue).toList ++
      ((Statement.textBranch onFalse).toList ++ '/' :: rest)) =
        some (.conditional condition onTrue onFalse, rest) := by
  cases onFalse with
  | none =>
    have htext : (Statement.textBranch none).toList ++ '/' :: rest = '/' :: rest := by
      simp [Statement.textBranch]
    rw [htext] at hbound ⊢
    have honTrue := hreads onTrue ('/' :: rest) htrue rfl hbound
    simp [Script.branches?, honTrue, branch?, slash?]
  | some others =>
    have htext : (Statement.textBranch (some others)).toList ++ '/' :: rest =
        ':' :: ((Statement.textList others).toList ++ '/' :: rest) := by
      simp [Statement.textBranch]
    rw [htext] at hbound ⊢
    have honTrue := hreads onTrue _ htrue rfl hbound
    rw [List.length_append, List.length_cons] at hbound
    have honFalse := hreads others ('/' :: rest) hfalse rfl (by omega)
    simp [Script.branches?, honTrue, branch?, honFalse, slash?]

lemma Reads.statement? {bound : ℕ} (hreads : Reads statements bound) {s : Statement}
    (hs : s.Clean) {rest : List Char} (hbound : (s.text.toList ++ rest).length ≤ bound) :
    Script.statement? statements (s.text.toList ++ rest) = some (s, rest) := by
  cases s with
  | call i => exact statement?_call hs.1 hs.2 rest
  | assign slot i => exact statement?_assign hs rest
  | continueIf condition => exact statement?_continueIf hs rest
  | conditional condition onTrue onFalse =>
    obtain ⟨hcondition, htrue, hfalse⟩ := hs
    rw [toList_conditional] at hbound
    simp only [List.length_append, List.length_cons] at hbound
    refine statement?_conditional hcondition (hreads.branches? htrue hfalse condition ?_)
    simp only [List.length_append, List.length_cons]
    omega

end Statement

lemma closes_append {word : List Char} (hword : ∀ c ∈ word, isMark c = false) (rest : List Char) :
    closes (word ++ '(' :: rest) = false := by
  cases word with
  | nil => rfl
  | cons c word =>
    have hc := hword c List.mem_cons_self
    simp_all [isMark, closes]

/-- No statement starts with a colon or a slash. -/
lemma closes_text {s : Statement} (hs : s.Clean) (rest : List Char) :
    closes (s.text.toList ++ rest) = false := by
  cases s with
  | call i =>
    have htext : (Statement.call i).text.toList ++ rest = i.text.toList ++ '/' :: rest := by
      simp [Statement.text]
    rw [htext, Invocation.toList_text]
    exact closes_append hs.1.1.isMark _
  | assign slot i => simp [Statement.text, Slot.text, Slot.stem, closes]
  | conditional condition onTrue onFalse => simp [Statement.text, closes]
  | continueIf condition => simp [Statement.text, closes]

lemma length_text_pos (s : Statement) : 0 < s.text.toList.length := by
  cases s <;> simp [Statement.text]

/-- Statements are read back one after another, up to where none follows. -/
theorem reads_statements? (budget : ℕ) : Reads (statements? budget) budget := by
  induction budget with
  | zero =>
    intro xs rest _ _ hbound
    exact absurd hbound (Nat.not_lt_zero _)
  | succ budget ih =>
    intro xs rest hxs hrest hbound
    cases xs with
    | nil => simp [Statement.textList, statements?, hrest]
    | cons s others =>
      obtain ⟨hs, hothers⟩ := hxs
      have htext : (Statement.textList (s :: others)).toList ++ rest =
          s.text.toList ++ ((Statement.textList others).toList ++ rest) := by
        simp [Statement.textList]
      rw [htext] at hbound ⊢
      have hpos := length_text_pos s
      have hread := ih.statement? hs (Nat.le_of_lt_succ hbound)
      rw [List.length_append] at hbound
      have hreads := ih others rest hothers hrest (by omega)
      simp [statements?, closes_text hs, hread, hreads]

lemma header?_text {h : Header} (hh : h.Clean) (rest : List Char) :
    header? (h.name.toList ++ (((h.arguments.map argumentsText).getD "").toList ++ '/' :: rest)) =
      some (h, rest) := by
  obtain ⟨name, arguments⟩ := h
  obtain ⟨hname, harguments⟩ := hh
  cases arguments with
  | none =>
    have hupTo := upTo_append (c := '/') hname.isMark rfl rest
    simp [header?, hupTo]
  | some arguments =>
    have hclean := harguments arguments rfl
    have htext : (argumentsText arguments).toList ++ '/' :: rest =
        '(' :: (argumentsInside arguments ++ ')' :: '/' :: rest) := by
      simp [argumentsText, argumentsInside]
    rw [Option.map_some, Option.getD_some, htext, header?, upTo_append hname.isMark rfl]
    simp [enclosed?_append hclean.notMem, slash?, hclean.argumentsOf]

lemma toList_text (s : Script) : s.text.toList = envelope ++ (s.header.name.toList ++
    (((s.header.arguments.map argumentsText).getD "").toList ++
      '/' :: (Statement.textList s.statements).toList)) := by
  have hslash : "/".toList = ['/'] := rfl
  unfold Script.text Header.text envelope
  simp only [String.toList_append, List.append_assoc, hslash, List.singleton_append]

/-- A clean script is read back from its text. -/
theorem read?_text {s : Script} (hs : s.Clean) : read? s.text = some s := by
  obtain ⟨hheader, hstatements⟩ := hs
  have hread := reads_statements? ((Statement.textList s.statements).toList.length + 1)
    s.statements [] hstatements rfl (by simp)
  rw [List.append_nil] at hread
  rw [read?, toList_text, List.take_left, if_pos rfl, List.drop_left, header?_text hheader]
  simp [hread]

/-- The text of a clean script says everything about it: some reader gives every clean script
back, and so two of them with one text are equal, in their headers and in every statement. -/
theorem text_unambiguous (s t : Script) (hs : s.Clean) (ht : t.Clean) :
    read? s.text = some s ∧ (s.text = t.text → s = t) := by
  refine ⟨read?_text hs, fun htext => ?_⟩
  have hread := read?_text hs
  rw [htext, read?_text ht] at hread
  exact (Option.some.inj hread).symm

/-- A script in which the words and marks of the dialect stand where they may be taken for
something else: calls without a name or named like a condition, empty arguments, and a
conditional that ends in an empty false branch. -/
def riddle : Script where
  header := ⟨"IF", none⟩
  statements := [.conditional "a>(" [.call ⟨"IF", ["", ""]⟩, .call ⟨"", []⟩] (some []),
    .assign default ⟨"CONTINUEIF", ["TIMING:"]⟩, .continueIf ""]

/-- The same script but for the empty false branch, which is missing, and the arguments of
the header, of which there is an empty list. -/
def riddleTwin : Script where
  header := ⟨"IF", some []⟩
  statements := [.conditional "a>(" [.call ⟨"IF", ["", ""]⟩, .call ⟨"", []⟩] none,
    .assign default ⟨"CONTINUEIF", ["TIMING:"]⟩, .continueIf ""]

theorem text_unambiguous_riddle : riddle.Clean ∧ riddleTwin.Clean ∧
    riddle.text = "Modular/TIMING:IF/IF(a>():IF(,)/()/:/VALUE_0:CONTINUEIF(TIMING:)/CONTINUEIF()/" ∧
    read? riddle.text = some riddle ∧ riddle.text ≠ riddleTwin.text := by
  have hriddle : riddle.Clean := by
    simp [Script.Clean, riddle, Header.Clean, Statement.CleanList, Statement.Clean,
      Statement.CleanBranch, Invocation.Clean, CleanName, CleanArguments, CleanCondition]
  have htwin : riddleTwin.Clean := by
    simp [Script.Clean, riddleTwin, Header.Clean, Statement.CleanList, Statement.Clean,
      Statement.CleanBranch, Invocation.Clean, CleanName, CleanArguments, CleanCondition]
  obtain ⟨hread, hsame⟩ := text_unambiguous riddle riddleTwin hriddle htwin
  have hne : riddle ≠ riddleTwin := by simp [riddle, riddleTwin]
  exact ⟨hriddle, htwin, by cbv, hread, fun htext => hne (hsame htext)⟩

end Script

end ScriptGraph
