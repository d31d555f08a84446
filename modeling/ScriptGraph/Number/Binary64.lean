/-!
# Binary64 numbers

A number is its sign and its magnitude word: eleven exponent bits above fifty-two
fraction bits. Nothing is computed with numbers here. They are read, compared and
written, so one rounding rule is enough, and it works in natural numbers: every finite
magnitude is a whole number of units, the unit being the least positive number.
-/
namespace ScriptGraph

/-- A number in the binary64 format. Two numbers are equal when their bits are. -/
structure Binary64 where
  negative : Bool
  magnitude : Fin 0x8000000000000000
deriving DecidableEq

namespace Binary64

/-- The number of values of the fraction bits. -/
def fractions : Nat := 0x10000000000000

/-- The magnitude word of infinity. Smaller words are finite, larger ones are no number. -/
def infinite : Nat := 0x7FF0000000000000

def isFinite (x : Binary64) : Bool := x.magnitude.val < infinite

def isNaN (x : Binary64) : Bool := infinite < x.magnitude.val

def zero : Binary64 := ⟨false, ⟨0, by decide⟩⟩

instance : Inhabited Binary64 := ⟨zero⟩

/-- The number with the given sixty-four bits. -/
def ofBits (word : UInt64) : Binary64 :=
  ⟨0x8000000000000000 ≤ word.toNat,
    ⟨word.toNat % 0x8000000000000000, Nat.mod_lt _ (by decide)⟩⟩

/-- The number one in units. -/
def unitsInOne : Nat := Nat.pow 2 1074

/-- A finite magnitude word in units. -/
def units (word : Nat) : Nat :=
  let exponent := word / fractions
  let fraction := word % fractions
  if exponent = 0 then fraction else (fractions + fraction) * Nat.pow 2 (exponent - 1)

/-- The whole number nearest to `n / d`; a half goes to the even neighbour. -/
def divNearest (n d : Nat) : Nat :=
  let quotient := n / d
  let rest := n % d
  if 2 * rest < d then quotient
  else if 2 * rest = d ∧ quotient % 2 = 0 then quotient
  else quotient + 1

/-- The magnitude word nearest to `n / d`: fifty-three significant bits, or as many as
there are units. A carry out of the fraction runs into the exponent, which is the next
word. Words from `infinite` on mean that the quotient is too large. -/
def nearest (n d : Nat) : Nat :=
  let scaled := n * unitsInOne
  let shift := (scaled / d).log2 - 52
  shift * fractions + divNearest scaled (d * Nat.pow 2 shift)

/-- The number with a given sign and magnitude word; words past the last finite one give
infinity. -/
def ofMagnitude (negative : Bool) (word : Nat) : Binary64 :=
  ⟨negative, ⟨min word infinite, Nat.lt_of_le_of_lt (Nat.min_le_right ..) (by decide)⟩⟩

/-- The number nearest to `n / d`. -/
def ofRatio (negative : Bool) (n d : Nat) : Binary64 :=
  ofMagnitude negative (nearest n d)

/-- The number nearest to a whole number. -/
def ofInt (i : Int) : Binary64 :=
  ofRatio (i < 0) i.natAbs 1

theorem val_ofMagnitude (negative : Bool) (word : Nat) :
    (ofMagnitude negative word).magnitude.val = min word infinite := rfl

@[simp] theorem isFinite_ofMagnitude (negative : Bool) (word : Nat) :
    (ofMagnitude negative word).isFinite = decide (word < infinite) := by
  have h : min word infinite < infinite ↔ word < infinite := by omega
  simp only [isFinite, val_ofMagnitude, h]

end Binary64

end ScriptGraph
