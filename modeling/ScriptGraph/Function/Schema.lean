/-!
# Function schemas

A schema describes one function of the script dialect: its name, the part it plays and
the names of its parameters in the order in which arguments are written.
-/
namespace ScriptGraph

inductive Category
  | timing
  | valueAcquisition
  | consequence
  | conditional
  | continueIf
deriving DecidableEq, Inhabited

namespace Category

def text : Category → String
  | timing => "Timing"
  | valueAcquisition => "ValueAcquisition"
  | consequence => "Consequence"
  | conditional => "Conditional"
  | continueIf => "ContinueIf"

def all : List Category := [timing, valueAcquisition, consequence, conditional, continueIf]

def ofText? (s : String) : Option Category := all.find? (·.text == s)

end Category

structure Schema where
  name : String
  category : Category
  parameters : List String := []
deriving DecidableEq, Inhabited

namespace Schema

/-- Whether a call yields a value, which is then bound to a slot. -/
def isValueProducing (s : Schema) : Bool := s.category == .valueAcquisition

/-- Whether a call splits the script into two branches. -/
def hasTwoBranches (s : Schema) : Bool := s.category == .conditional

end Schema

end ScriptGraph
