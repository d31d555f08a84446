/-!
# Choices

Sample graphs are made by choosing. The choices come from an endless supply of numbers,
so what holds for every supply holds for every source of chance.
-/
namespace ScriptGraph.Sample

/-- An endless supply of numbers. -/
abbrev Choices := Nat → Nat

/-- A computation that draws from a supply and counts how many numbers it drew. -/
abbrev Draw := ReaderT Choices (StateM Nat)

/-- The next number of the supply. -/
def draw : Draw Nat := fun choices drawn => (choices drawn, drawn + 1)

/-- A number below a bound. -/
def below (bound : Nat) : Draw Nat := return (← draw) % bound

/-- A member of a list. The default is taken only if the list is empty. -/
def pick {α : Type} [Inhabited α] (xs : List α) : Draw α :=
  return xs.getD (← below xs.length) default

/-- As many results as asked for. -/
def times {α : Type} (d : Draw α) : Nat → Draw (List α)
  | 0 => return []
  | n + 1 => return (← d) :: (← times d n)

/-- Spreads the bits of a word over the whole word. -/
def mix (z : UInt64) : UInt64 :=
  let z := (z ^^^ (z >>> 30)) * 0xBF58476D1CE4E5B9
  let z := (z ^^^ (z >>> 27)) * 0x94D049BB133111EB
  z ^^^ (z >>> 31)

/-- The supply that belongs to a seed: the mixed words of an arithmetic progression. It is a
supply like any other, and nothing rests on it being this one. A seed gives the same document
each time here, but not the document that another generator of random numbers gives for it. -/
def Choices.ofSeed (seed : Nat) : Choices := fun k =>
  (mix (UInt64.ofNat seed + UInt64.ofNat (k + 1) * 0x9E3779B97F4A7C15)).toNat

end ScriptGraph.Sample
