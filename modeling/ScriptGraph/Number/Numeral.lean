import ScriptGraph.Number.Binary64

/-!
# Decimal numerals

A `Numeral` is a number as it is written: a sign, whole digits, fraction digits and an
exponent. A `Decimal` is what it means without its sign. Reading a numeral rounds that
exact value once.
-/
namespace ScriptGraph

/-- The value `digits * 10 ^ exponent`. -/
structure Decimal where
  digits : Nat
  exponent : Int
deriving DecidableEq

namespace Decimal

/-- The magnitude word nearest to a decimal. Exponents far outside the range of the
format are decided without forming their power of ten: the value is at least `10 ^ 401`,
or it is below `10 ^ (-400)`. -/
def nearest (d : Decimal) : Nat :=
  if d.digits = 0 then 0
  else if 400 < d.exponent then Binary64.infinite
  else if d.exponent < -(401 + d.digits.log2 : Int) then 0
  else match d.exponent with
    | .ofNat k => Binary64.nearest (d.digits * Nat.pow 10 k) 1
    | .negSucc k => Binary64.nearest d.digits (Nat.pow 10 (k + 1))

/-- The same value without trailing zeros in its digits. -/
def trim (digits : Nat) (exponent : Int) : Decimal :=
  if h : digits ≠ 0 ∧ digits % 10 = 0 then trim (digits / 10) (exponent + 1)
  else ⟨digits, exponent⟩
termination_by digits
decreasing_by omega

end Decimal

/-- A written number. An empty fraction is written without a point, and the flag of an
exponent says that it is negative. -/
structure Numeral where
  negative : Bool
  whole : List Char
  fraction : List Char
  exponent : Option (Bool × List Char)
deriving DecidableEq

namespace Numeral

/-- The number that a run of digits writes. -/
def digitsValue (digits : List Char) : Nat :=
  digits.foldl (fun value c => 10 * value + (c.toNat - '0'.toNat)) 0

/-- The numeral of a whole number. -/
def ofNat (n : Nat) : Numeral := ⟨false, Nat.toDigits 10 n, [], none⟩

def signedExponent : Option (Bool × List Char) → Int
  | none => 0
  | some (true, digits) => -(digitsValue digits)
  | some (false, digits) => digitsValue digits

/-- The value of a numeral without its sign. -/
def decimal (n : Numeral) : Decimal :=
  ⟨digitsValue (n.whole ++ n.fraction), signedExponent n.exponent - n.fraction.length⟩

/-- The value of a numeral that is written as a whole number without a sign. -/
def toNat? (n : Numeral) : Option Nat :=
  if n.negative = false ∧ n.fraction = [] ∧ n.exponent = none then some (digitsValue n.whole)
  else none

/-- The number nearest to a numeral. -/
def toBinary64 (n : Numeral) : Binary64 :=
  .ofMagnitude n.negative n.decimal.nearest

/-- The characters of an exponent: its sign is always written. -/
def exponentChars : Option (Bool × List Char) → List Char
  | none => []
  | some (true, digits) => 'e' :: '-' :: digits
  | some (false, digits) => 'e' :: '+' :: digits

def chars (n : Numeral) : List Char :=
  (if n.negative then ['-'] else []) ++ n.whole
    ++ (if n.fraction = [] then [] else '.' :: n.fraction) ++ exponentChars n.exponent

def text (n : Numeral) : String := String.ofList n.chars

end Numeral

end ScriptGraph
