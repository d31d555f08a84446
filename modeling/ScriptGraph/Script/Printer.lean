import ScriptGraph.Script.Basic

/-!
# Script text

A script is written on one line. Every statement ends in a slash, and so do the envelope
and the header.
-/
namespace ScriptGraph.Script

/-- Arguments in parentheses, divided by commas. -/
def argumentsText (arguments : List String) : String :=
  "(" ++ String.intercalate "," arguments ++ ")"

def Invocation.text (i : Invocation) : String := i.name ++ argumentsText i.arguments

def Header.text (h : Header) : String :=
  "TIMING:" ++ h.name ++ (h.arguments.map argumentsText).getD "" ++ "/"

namespace Statement

mutual

/-- A conditional has its true branch behind a colon, and its false branch, if it has
one, behind another. -/
def text : Statement → String
  | .call i => i.text ++ "/"
  | .assign slot i => slot.text ++ ":" ++ i.text ++ "/"
  | .conditional condition onTrue onFalse =>
    "IF(" ++ condition ++ "):" ++ textList onTrue ++ textBranch onFalse ++ "/"
  | .continueIf condition => "CONTINUEIF(" ++ condition ++ ")/"

def textList : List Statement → String
  | [] => ""
  | s :: rest => text s ++ textList rest

def textBranch : Option (List Statement) → String
  | none => ""
  | some statements => ":" ++ textList statements

end

end Statement

end ScriptGraph.Script

namespace ScriptGraph

/-- The text of a whole script. -/
def Script.text (s : Script) : String :=
  "Modular/" ++ s.header.text ++ Script.Statement.textList s.statements

end ScriptGraph
