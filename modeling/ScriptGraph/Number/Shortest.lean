import ScriptGraph.Number.Numeral

/-!
# The fewest digits that read back

Of all decimals that round to a number, the numeral of the number has the fewest digits,
and of those it is the nearest to the number. On each decimal grid only the two
neighbours of the number have to be tried, and a trial is simply to read the numeral. A
`Style` says how digits are laid out.
-/
namespace ScriptGraph

/-- Which of two equally near decimals is taken. -/
inductive Tie
  | up
  | even
deriving DecidableEq

namespace Decimal

/-- The value of a magnitude word over `10 ^ e`, as a quotient of natural numbers. -/
def onGrid (word : Nat) : Int → Nat × Nat
  | .ofNat k => (Binary64.units word, Binary64.unitsInOne * Nat.pow 10 k)
  | .negSucc k => (Binary64.units word * Nat.pow 10 (k + 1), Binary64.unitsInOne)

/-- The two neighbours of a value among the multiples of `10 ^ e`, the nearer one
first. -/
def neighbours (tie : Tie) (word : Nat) (e : Int) : List Decimal :=
  let (n, d) := onGrid word e
  let low : Decimal := ⟨n / d, e⟩
  let high : Decimal := ⟨n / d + 1, e⟩
  let rest := n % d
  if 2 * rest < d then [low, high]
  else if 2 * rest = d ∧ tie = .even ∧ n / d % 2 = 0 then [low, high]
  else [high, low]

/-- The exponent of the leading digit of a positive value, from its binary order. -/
def leadingExponent (word : Nat) : Int :=
  let guess := ((Binary64.units word).log2 - 1074 : Int) * 30103 / 100000
  let (n, d) := onGrid word (guess + 1)
  if n < d then guess else guess + 1

end Decimal

namespace Numeral

/-- How a number is laid out: which of two nearest decimals is taken, for which exponents
of the leading digit no exponent is written, and whether a whole number ends in a zero
fraction when no exponent is written. -/
structure Style where
  tie : Tie
  positional : Int → Bool
  zeroFraction : Bool

/-- Whole and fraction digits of `digits * 10 ^ exponent`. -/
def spread (digits : List Char) : Int → List Char × List Char
  | .ofNat k => (digits ++ List.replicate k '0', [])
  | .negSucc k =>
    if k + 1 < digits.length then digits.splitAt (digits.length - (k + 1))
    else (['0'], List.replicate (k + 1 - digits.length) '0' ++ digits)

/-- The numeral of a decimal, without zeros at the end of its digits. -/
def layout (style : Style) (negative : Bool) (d : Decimal) : Numeral :=
  let d := Decimal.trim d.digits d.exponent
  let digits := Nat.toDigits 10 d.digits
  let order : Int := digits.length + d.exponent - 1
  if style.positional order then
    let (whole, fraction) := spread digits d.exponent
    ⟨negative, whole, if fraction = [] ∧ style.zeroFraction then ['0'] else fraction, none⟩
  else
    ⟨negative, digits.take 1, digits.drop 1, some (order < 0, Nat.toDigits 10 order.natAbs)⟩

/-- All digits of a finite number: a unit has 1074 places. -/
def exact (x : Binary64) : Numeral :=
  ⟨x.negative, Nat.toDigits 10 (Binary64.units x.magnitude * Nat.pow 5 1074), [],
    some (true, Nat.toDigits 10 1074)⟩

/-- The numeral of a finite number in a given style. Seventeen digits are always enough;
the exact value stands behind them. -/
def ofBinary64 (style : Style) (x : Binary64) : Numeral :=
  if x.magnitude.val = 0 then layout style x.negative ⟨0, 0⟩
  else
    let top := Decimal.leadingExponent x.magnitude
    let found := (List.range 17).findSome? fun (i : Nat) =>
      ((Decimal.neighbours style.tie x.magnitude (top - i)).map (layout style x.negative)).find?
        fun n => n.toBinary64 = x
    found.getD (exact x)

end Numeral

end ScriptGraph
