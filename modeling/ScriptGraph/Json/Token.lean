import ScriptGraph.Json.Basic

/-!
# JSON tokens

The lexemes of JSON text, read one at a time from a list of characters. Blanks are
space, tab, line feed and carriage return. `Token.next` also says that what it leaves is
shorter than what it was given, which is why reading ends.
-/
namespace ScriptGraph.Json

inductive Token
  | openList
  | closeList
  | openObject
  | closeObject
  | comma
  | colon
  | null
  | bool (b : Bool)
  | num (n : Numeral)
  | str (s : Literal)
deriving DecidableEq

namespace Literal

/-- What stands between the quotes of a literal: a character as itself or by a short
escape, or a sixteen-bit code unit by a numeric escape. -/
inductive Piece
  | char (c : Char)
  | unit (code : Nat)
deriving DecidableEq

def hexDigit? (c : Char) : Option Nat :=
  if '0' ≤ c ∧ c ≤ '9' then some (c.toNat - '0'.toNat)
  else if 'a' ≤ c ∧ c ≤ 'f' then some (c.toNat - 'a'.toNat + 10)
  else if 'A' ≤ c ∧ c ≤ 'F' then some (c.toNat - 'A'.toNat + 10)
  else none

def hexUnit? (a b c d : Char) : Option Nat := do
  let a ← hexDigit? a
  let b ← hexDigit? b
  let c ← hexDigit? c
  let d ← hexDigit? d
  return ((a * 16 + b) * 16 + c) * 16 + d

/-- The character that follows a backslash in a short escape. -/
def shortEscape? : Char → Option Char
  | '"' => some '"'
  | '\\' => some '\\'
  | '/' => some '/'
  | 'b' => some '\x08'
  | 'f' => some '\x0c'
  | 'n' => some '\n'
  | 'r' => some '\r'
  | 't' => some '\t'
  | _ => none

/-- The pieces up to the closing quote, last one first, and what follows the quote.
Characters below the space have to be escaped. -/
def pieces (before : List Piece) : List Char → Option (List Piece × List Char)
  | [] => none
  | '"' :: rest => some (before, rest)
  | '\\' :: 'u' :: a :: b :: c :: d :: rest =>
    match hexUnit? a b c d with
    | some code => pieces (.unit code :: before) rest
    | none => none
  | '\\' :: c :: rest =>
    match shortEscape? c with
    | some e => pieces (.char e :: before) rest
    | none => none
  | c :: rest => if c.toNat < 0x20 ∨ c = '\\' then none else pieces (.char c :: before) rest

theorem pieces_length {before : List Piece} {cs : List Char} {ps : List Piece}
    {rest : List Char} (h : pieces before cs = some (ps, rest)) :
    rest.length < cs.length := by
  fun_induction pieces before cs <;> simp_all <;> omega

def isHigh (code : Nat) : Bool := 0xD800 ≤ code && code < 0xDC00

def isLow (code : Nat) : Bool := 0xDC00 ≤ code && code < 0xE000

/-- The characters of some pieces, given last one first, in front of the characters
`after` them: a low code unit and the high one right before it are one character. -/
def combine (after : List Char) : List Piece → Option (List Char)
  | [] => some after
  | .char c :: before => combine (c :: after) before
  | .unit low :: .unit high :: before =>
    if isLow low && isHigh high then
      combine (Char.ofNat (0x10000 + (high - 0xD800) * 0x400 + (low - 0xDC00)) :: after) before
    else if isLow low || isHigh low then none
    else combine (Char.ofNat low :: after) (.unit high :: before)
  | .unit code :: before =>
    if isLow code || isHigh code then none else combine (Char.ofNat code :: after) before

/-- The literal made of some pieces, given last one first. -/
def ofPieces (ps : List Piece) : Literal :=
  match combine [] ps with
  | some cs => .text (String.ofList cs)
  | none => .unpaired

end Literal

namespace Token

def isBlank (c : Char) : Bool := c == ' ' || c == '\n' || c == '\r' || c == '\t'

/-- Cuts the leading digits off. -/
def digits (cs : List Char) : List Char × List Char :=
  (cs.takeWhile Char.isDigit, cs.dropWhile Char.isDigit)

theorem digits_length_le (cs : List Char) : (digits cs).2.length ≤ cs.length :=
  (List.dropWhile_sublist _).length_le

/-- The fraction of a numeral: none, or a point and at least one digit. -/
def fraction? : List Char → Option (List Char × List Char)
  | '.' :: cs => if (digits cs).1 = [] then none else some (digits cs)
  | cs => some ([], cs)

/-- The sign in front of the digits of an exponent, if any. -/
def exponentSign : List Char → Bool × List Char
  | '-' :: cs => (true, cs)
  | '+' :: cs => (false, cs)
  | cs => (false, cs)

/-- The exponent of a numeral: none, or a mark, a sign if any and at least one digit. -/
def exponent? : List Char → Option (Option (Bool × List Char) × List Char)
  | [] => some (none, [])
  | c :: cs =>
    if c = 'e' ∨ c = 'E' then
      let (negative, body) := exponentSign cs
      if (digits body).1 = [] then none
      else some (some (negative, (digits body).1), (digits body).2)
    else some (none, c :: cs)

theorem fraction?_length_le {cs ds rest : List Char} (h : fraction? cs = some (ds, rest)) :
    rest.length ≤ cs.length := by
  unfold fraction? at h
  split at h
  · rename_i cs'
    have := digits_length_le cs'
    split at h
    · simp at h
    · simp only [Option.some.injEq] at h
      rw [h] at this
      exact Nat.le_succ_of_le this
  · simp_all

theorem exponentSign_length_le (cs : List Char) : (exponentSign cs).2.length ≤ cs.length := by
  unfold exponentSign
  split <;> simp

theorem exponent?_length_le {cs rest : List Char} {e : Option (Bool × List Char)}
    (h : exponent? cs = some (e, rest)) : rest.length ≤ cs.length := by
  unfold exponent? at h
  split at h
  · simp_all
  · rename_i c cs'
    split at h
    · have h₁ := exponentSign_length_le cs'
      have h₂ := digits_length_le (exponentSign cs').2
      simp only at h
      split at h
      · simp at h
      · simp only [Option.some.injEq, Prod.mk.injEq] at h
        rw [← h.2, List.length_cons]
        omega
    · simp only [Option.some.injEq, Prod.mk.injEq] at h
      exact Nat.le_of_eq (congrArg List.length h.2.symm)

/-- The rest of a numeral after its sign. A whole part of several digits does not start
with zero. -/
def unsigned? (negative : Bool) (cs : List Char) : Option (Numeral × List Char) :=
  match digits cs with
  | ([], _) => none
  | (d :: ds, rest) =>
    if d = '0' ∧ ds ≠ [] then none
    else match fraction? rest with
      | none => none
      | some (fraction, rest) => match exponent? rest with
        | none => none
        | some (exponent, rest) => some (⟨negative, d :: ds, fraction, exponent⟩, rest)

theorem unsigned?_length {negative : Bool} {cs rest : List Char} {n : Numeral}
    (h : unsigned? negative cs = some (n, rest)) : rest.length < cs.length := by
  unfold unsigned? at h
  split at h
  · cases h
  · rename_i d ds behind hdigits
    -- The whole digits and what stands behind them are all characters.
    have hsplit : cs.takeWhile Char.isDigit ++ cs.dropWhile Char.isDigit = cs :=
      List.takeWhile_append_dropWhile
    obtain ⟨hwhole, hbehind⟩ := Prod.mk.inj hdigits
    rw [hwhole, hbehind] at hsplit
    have hlength := congrArg List.length hsplit
    rw [List.length_append, List.length_cons] at hlength
    split at h
    · cases h
    · split at h
      · cases h
      · rename_i hfraction
        have hpoint := fraction?_length_le hfraction
        split at h
        · cases h
        · rename_i hexponent
          have hmark := exponent?_length_le hexponent
          obtain ⟨-, rfl⟩ := Prod.mk.inj (Option.some.inj h)
          omega

/-- The token at the front of a text that starts with no blank. -/
def lexeme : List Char → Option (Token × List Char)
  | '[' :: rest => some (.openList, rest)
  | ']' :: rest => some (.closeList, rest)
  | '\x7b' :: rest => some (.openObject, rest)
  | '\x7d' :: rest => some (.closeObject, rest)
  | ',' :: rest => some (.comma, rest)
  | ':' :: rest => some (.colon, rest)
  | 'n' :: 'u' :: 'l' :: 'l' :: rest => some (.null, rest)
  | 't' :: 'r' :: 'u' :: 'e' :: rest => some (.bool true, rest)
  | 'f' :: 'a' :: 'l' :: 's' :: 'e' :: rest => some (.bool false, rest)
  | '"' :: cs =>
    match Literal.pieces [] cs with
    | some (ps, rest) => some (.str (.ofPieces ps), rest)
    | none => none
  | '-' :: cs => (unsigned? true cs).map fun (n, rest) => (.num n, rest)
  | cs => (unsigned? false cs).map fun (n, rest) => (.num n, rest)

theorem numeral_length {negative : Bool} {cs rest : List Char} {t : Token}
    (h : ((unsigned? negative cs).map fun (n, rest) => (Token.num n, rest)) = some (t, rest)) :
    rest.length < cs.length := by
  obtain ⟨⟨n, left⟩, hn, hleft⟩ := Option.map_eq_some_iff.1 h
  obtain ⟨-, rfl⟩ := Prod.mk.inj hleft
  exact unsigned?_length hn

/-- A lexeme has at least one character. -/
theorem lexeme_length {cs rest : List Char} {t : Token} (h : lexeme cs = some (t, rest)) :
    rest.length < cs.length := by
  unfold lexeme at h
  split at h
  -- The six marks and the three words stand in the text themselves.
  iterate 9
    · obtain ⟨-, rfl⟩ := Prod.mk.inj (Option.some.inj h)
      simp only [List.length_cons]
      omega
  -- A literal ends with its closing quote.
  · rename_i body
    cases hpieces : Literal.pieces [] body with
    | none => simp [hpieces] at h
    | some found =>
      obtain ⟨ps, left⟩ := found
      have hleft := Literal.pieces_length hpieces
      rw [hpieces] at h
      obtain ⟨-, rfl⟩ := Prod.mk.inj (Option.some.inj h)
      exact Nat.lt_succ_of_lt hleft
  -- A numeral has a digit, with or without a sign before it.
  · exact Nat.lt_succ_of_lt (numeral_length h)
  · exact numeral_length h

end Token

end ScriptGraph.Json
