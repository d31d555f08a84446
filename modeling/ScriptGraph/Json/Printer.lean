import ScriptGraph.Json.Basic

/-!
# Writing JSON text

Two layouts: compact, without any blank, and pretty, with one item or field on a line
and two blanks for each level. In strings only the quote, the backslash and the
characters below the space are escaped.
-/
namespace ScriptGraph.Json

/-- The lower-case hexadecimal digit of a number below sixteen. -/
def hexChar (n : Nat) : Char :=
  if n < 10 then Char.ofNat ('0'.toNat + n) else Char.ofNat ('a'.toNat + (n - 10))

def escapeChar (c : Char) : List Char :=
  if c = '"' then ['\\', '"']
  else if c = '\\' then ['\\', '\\']
  else if c = '\x08' then ['\\', 'b']
  else if c = '\x0c' then ['\\', 'f']
  else if c = '\n' then ['\\', 'n']
  else if c = '\r' then ['\\', 'r']
  else if c = '\t' then ['\\', 't']
  else if c.toNat < 0x20 then ['\\', 'u', '0', '0', hexChar (c.toNat / 16), hexChar (c.toNat % 16)]
  else [c]

/-- The characters of a literal with its quotes. A literal without text is written as one
unpaired escape. -/
def Literal.chars : Literal → List Char
  | .text s => '"' :: s.toList.flatMap escapeChar ++ ['"']
  | .unpaired => ['"', '\\', 'u', 'd', '8', '0', '0', '"']

def atomChars : Json → List Char
  | .null => ['n', 'u', 'l', 'l']
  | .bool true => ['t', 'r', 'u', 'e']
  | .bool false => ['f', 'a', 'l', 's', 'e']
  | .num n => n.chars
  | .str s => s.chars
  | .arr _ => ['[', ']']
  | .obj _ => ['\x7b', '\x7d']

mutual

/-- The characters of a value without blanks. -/
def compactChars : Json → List Char
  | .arr items => '[' :: compactItems items ++ [']']
  | .obj fields => '\x7b' :: compactFields fields ++ ['\x7d']
  | atom => atomChars atom

def compactItems : List Json → List Char
  | [] => []
  | [j] => compactChars j
  | j :: rest => compactChars j ++ ',' :: compactItems rest

def compactFields : List (Literal × Json) → List Char
  | [] => []
  | [(name, j)] => name.chars ++ ':' :: compactChars j
  | (name, j) :: rest => name.chars ++ ':' :: compactChars j ++ ',' :: compactFields rest

end

/-- A line feed and the blanks of a level. -/
def newline (level : Nat) : List Char := '\n' :: List.replicate (2 * level) ' '

mutual

/-- The characters of a value with one item or field on a line, inside a given level. -/
def prettyChars (level : Nat) : Json → List Char
  | .arr (j :: rest) => '[' :: prettyItems (level + 1) (j :: rest) ++ newline level ++ [']']
  | .obj (f :: rest) =>
    '\x7b' :: prettyFields (level + 1) (f :: rest) ++ newline level ++ ['\x7d']
  | atom => atomChars atom

def prettyItems (level : Nat) : List Json → List Char
  | [] => []
  | [j] => newline level ++ prettyChars level j
  | j :: rest => newline level ++ prettyChars level j ++ ',' :: prettyItems level rest

def prettyFields (level : Nat) : List (Literal × Json) → List Char
  | [] => []
  | [(name, j)] => newline level ++ name.chars ++ ':' :: ' ' :: prettyChars level j
  | (name, j) :: rest =>
    newline level ++ name.chars ++ ':' :: ' ' :: prettyChars level j
      ++ ',' :: prettyFields level rest

end

def compact (j : Json) : String := String.ofList (compactChars j)

def pretty (j : Json) : String := String.ofList (prettyChars 0 j)

end ScriptGraph.Json
