import ScriptGraph.Slot.Basic

/-!
# Scripts

A script is a header, which names the trigger, and a list of statements. Arguments and
conditions are already text here.
-/
namespace ScriptGraph

namespace Script

/-- A function name with its arguments. -/
structure Invocation where
  name : String
  arguments : List String
deriving DecidableEq

/-- The trigger a script hangs off. A trigger that takes no arguments has none, which is
not the same as an empty list of them. -/
structure Header where
  name : String
  arguments : Option (List String)
deriving DecidableEq

inductive Statement
  | call (invocation : Invocation)
  | assign (slot : Slot) (invocation : Invocation)
  | conditional (condition : String) (onTrue : List Statement)
      (onFalse : Option (List Statement))
  | continueIf (condition : String)

namespace Statement

mutual

/-- The number of statements, with everything inside branches. -/
def size : Statement → Nat
  | .conditional _ onTrue onFalse => 1 + sizeList onTrue + sizeBranch onFalse
  | _ => 1

def sizeList : List Statement → Nat
  | [] => 0
  | s :: rest => size s + sizeList rest

def sizeBranch : Option (List Statement) → Nat
  | none => 0
  | some statements => sizeList statements

end

end Statement

end Script

structure Script where
  header : Script.Header
  statements : List Script.Statement

end ScriptGraph
