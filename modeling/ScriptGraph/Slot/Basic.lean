/-!
# Variable slots

The script dialect has ten numbered variables, `VALUE_0` to `VALUE_9`.
-/
namespace ScriptGraph

/-- One of the ten variables. -/
structure Slot where
  index : Fin 10
deriving DecidableEq, Inhabited

namespace Slot

/-- What the name of every slot starts with. -/
def stem : String := "VALUE_"

/-- The slot of an index, if it is below ten. -/
def ofIndex? (n : Nat) : Option Slot :=
  if h : n < 10 then some ⟨n, h⟩ else none

/-- Every slot, ascending. -/
def all : List Slot := (List.finRange 10).map Slot.mk

def text (s : Slot) : String := stem ++ String.singleton (Nat.digitChar s.index)

/-- The slot of a name: the stem and exactly one digit. -/
def ofText? (s : String) : Option Slot := all.find? (·.text == s)

theorem mem_all (s : Slot) : s ∈ all := by
  simp [all]

/-- A text that names no slot. -/
structure NameError where
  text : String
deriving DecidableEq

def NameError.message (e : NameError) : String :=
  s!"'{e.text}' is not a variable slot (expected VALUE_0 through VALUE_9)"

/-- Reads the name of a slot. -/
def parse (s : String) : Except NameError Slot :=
  match ofText? s with
  | some slot => .ok slot
  | none => .error ⟨s⟩

end Slot

end ScriptGraph
