/-!
# Handles and variants

A handle is a named connection point of a node. The variant of a node, its kind without
its content, decides which handles it has.
-/
namespace ScriptGraph

inductive Handle
  | input
  | output
  | whenTrue
  | whenFalse
deriving DecidableEq, Inhabited

namespace Handle

def text : Handle → String
  | input => "input"
  | output => "output"
  | whenTrue => "true"
  | whenFalse => "false"

def all : List Handle := [input, output, whenTrue, whenFalse]

def ofText? (s : String) : Option Handle := all.find? (·.text == s)

@[simp] theorem ofText?_text (h : Handle) : ofText? h.text = some h := by
  cases h <;> decide

/-- A text that names no handle. -/
structure NameError where
  text : String
deriving DecidableEq

def NameError.message (e : NameError) : String := s!"unknown handle '{e.text}'"

/-- Reads the name of a handle. -/
def parse (s : String) : Except NameError Handle :=
  match ofText? s with
  | some h => .ok h
  | none => .error ⟨s⟩

end Handle

inductive Variant
  | timing
  | valueAcquisition
  | consequence
  | conditional
  | continueIf
  | assignment
deriving DecidableEq, Inhabited

namespace Variant

def text : Variant → String
  | timing => "Timing"
  | valueAcquisition => "ValueAcquisition"
  | consequence => "Consequence"
  | conditional => "Conditional"
  | continueIf => "ContinueIf"
  | assignment => "Assignment"

def all : List Variant :=
  [timing, valueAcquisition, consequence, conditional, continueIf, assignment]

def ofText? (s : String) : Option Variant := all.find? (·.text == s)

@[simp] theorem ofText?_text (v : Variant) : ofText? v.text = some v := by
  cases v <;> decide

/-- A trigger has no input; every other node has one. -/
def inputs : Variant → List Handle
  | timing => []
  | _ => [.input]

/-- A conditional has a handle for each branch; every other node has one output. -/
def outputs : Variant → List Handle
  | conditional => [.whenTrue, .whenFalse]
  | _ => [.output]

def acceptsInput (v : Variant) (h : Handle) : Bool := v.inputs.contains h

def hasOutput (v : Variant) (h : Handle) : Bool := v.outputs.contains h

end Variant

end ScriptGraph
