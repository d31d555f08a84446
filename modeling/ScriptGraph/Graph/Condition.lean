/-!
# Conditions

A condition joins comparisons of free-form operands by one logical operator.
-/
namespace ScriptGraph

inductive Comparison
  | greater
  | less
  | greaterOrEqual
  | lessOrEqual
  | equal
  | notEqual
deriving DecidableEq, Inhabited

namespace Comparison

def text : Comparison → String
  | greater => ">"
  | less => "<"
  | greaterOrEqual => ">="
  | lessOrEqual => "<="
  | equal => "="
  | notEqual => "!="

def all : List Comparison := [greater, less, greaterOrEqual, lessOrEqual, equal, notEqual]

def ofText? (s : String) : Option Comparison := all.find? (·.text == s)

end Comparison

inductive Logic
  | and
  | or
  | xor
deriving DecidableEq, Inhabited

namespace Logic

def text : Logic → String
  | and => "AND"
  | or => "OR"
  | xor => "XOR"

def all : List Logic := [and, or, xor]

def ofText? (s : String) : Option Logic := all.find? (·.text == s)

end Logic

/-- One comparison of two operands. -/
structure Term where
  left : String
  operator : Comparison
  right : String
deriving DecidableEq

def Term.text (t : Term) : String := t.left ++ t.operator.text ++ t.right

/-- The guard of a conditional or a continue-if node. -/
structure Condition where
  terms : List Term := []
  logic : Logic := .and
deriving DecidableEq, Inhabited

namespace Condition

/-- No terms are written as nothing and a single one bare; several stand behind the
logical operator, all divided by commas. -/
def text (c : Condition) : String :=
  match c.terms with
  | [] => ""
  | [t] => t.text
  | ts => String.intercalate "," (c.logic.text :: ts.map Term.text)

end Condition

end ScriptGraph
