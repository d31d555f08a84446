import ScriptGraph.Script.Basic

/-!
# Scripts line by line

The lines of a script are its statements in the order of the text: a conditional comes
before what is inside its branches, and the true branch before the false one. The outline
of a script is what is left of it when the arguments are blanked.
-/
namespace ScriptGraph

namespace Script

/-- The name and the number of arguments. -/
def Invocation.outline (i : Invocation) : Invocation := ⟨i.name, i.arguments.map fun _ => ""⟩

namespace Statement

/-- What a statement calls, if it is a call or an assignment. -/
def invocation? : Statement → Option Invocation
  | .call invocation => some invocation
  | .assign _ invocation => some invocation
  | _ => none

/-- The slot that a statement assigns. -/
def assigned? : Statement → Option Slot
  | .assign slot _ => some slot
  | _ => none

mutual

/-- A statement with everything but the arguments of its calls: the shape of its branches,
conditions, slots, and the names and argument counts of calls. -/
def outline : Statement → Statement
  | .call invocation => .call invocation.outline
  | .assign slot invocation => .assign slot invocation.outline
  | .conditional condition onTrue onFalse =>
    .conditional condition (outlineList onTrue) (outlineBranch onFalse)
  | .continueIf condition => .continueIf condition

def outlineList : List Statement → List Statement
  | [] => []
  | s :: rest => outline s :: outlineList rest

def outlineBranch : Option (List Statement) → Option (List Statement)
  | none => none
  | some statements => some (outlineList statements)

end

mutual

/-- A statement and all that is inside its branches, in the order of the text. -/
def lines : Statement → List Statement
  | .conditional condition onTrue onFalse =>
    .conditional condition onTrue onFalse :: (linesList onTrue ++ linesBranch onFalse)
  | s => [s]

def linesList : List Statement → List Statement
  | [] => []
  | s :: rest => lines s ++ linesList rest

def linesBranch : Option (List Statement) → List Statement
  | none => []
  | some statements => linesList statements

end

@[simp] theorem outlineList_append (xs ys : List Statement) :
    outlineList (xs ++ ys) = outlineList xs ++ outlineList ys := by
  induction xs with
  | nil => simp [outlineList]
  | cons s rest ih => simp [outlineList, ih]

@[simp] theorem linesList_append (xs ys : List Statement) :
    linesList (xs ++ ys) = linesList xs ++ linesList ys := by
  induction xs with
  | nil => simp [linesList]
  | cons s rest ih => simp [linesList, ih]

theorem linesList_getD (branch : Option (List Statement)) :
    linesList (branch.getD []) = linesBranch branch := by
  cases branch <;> simp [linesList, linesBranch]

end Statement

end Script

end ScriptGraph
