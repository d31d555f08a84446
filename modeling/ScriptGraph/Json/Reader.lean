import ScriptGraph.Json.Token

/-!
# Reading JSON text

A text is read token by token. The reader's state is the value or the place reached so
far together with the lists and objects that are still open, so the depth of nesting is
bounded by nothing but the text.
-/
namespace ScriptGraph.Json

/-- A list or an object that is still open around the current place; what it holds so
far is kept last one first. -/
inductive Frame
  | list (items : List Json)
  | object (fields : List (Literal × Json)) (label : Literal)

/-- What the text read so far asks for. -/
inductive Reader
  /-- A value has to follow. -/
  | value (outer : List Frame)
  /-- A list was opened: its first item or its end. -/
  | item (outer : List Frame)
  /-- An object was opened: its first field or its end. -/
  | field (outer : List Frame)
  /-- A comma in an object: the name of a field. -/
  | name (fields : List (Literal × Json)) (outer : List Frame)
  /-- A field was named: a colon. -/
  | colon (fields : List (Literal × Json)) (label : Literal) (outer : List Frame)
  /-- A value is complete. -/
  | done (value : Json) (outer : List Frame)

namespace Reader

/-- A token where a value has to start. -/
def start (outer : List Frame) : Token → Option Reader
  | .openList => some (.item outer)
  | .openObject => some (.field outer)
  | .null => some (.done .null outer)
  | .bool b => some (.done (.bool b) outer)
  | .num n => some (.done (.num n) outer)
  | .str s => some (.done (.str s) outer)
  | _ => none

/-- One token further, if it may stand here. -/
def step : Reader → Token → Option Reader
  | .value outer, t => start outer t
  | .item outer, .closeList => some (.done (.arr []) outer)
  | .item outer, t => start (.list [] :: outer) t
  | .field outer, .closeObject => some (.done (.obj []) outer)
  | .field outer, .str s => some (.colon [] s outer)
  | .name fields outer, .str s => some (.colon fields s outer)
  | .colon fields label outer, .colon => some (.value (.object fields label :: outer))
  | .done j (.list items :: outer), .comma => some (.value (.list (j :: items) :: outer))
  | .done j (.list items :: outer), .closeList =>
    some (.done (.arr (j :: items).reverse) outer)
  | .done j (.object fields label :: outer), .comma => some (.name ((label, j) :: fields) outer)
  | .done j (.object fields label :: outer), .closeObject =>
    some (.done (.obj ((label, j) :: fields).reverse) outer)
  | _, _ => none

/-- Reads on to the end of the text, where one complete value has to be reached. -/
def run (r : Reader) (cs : List Char) : Option Json :=
  match cs with
  | [] => match r with
    | .done j [] => some j
    | _ => none
  | c :: rest =>
    if Token.isBlank c then run r rest
    else match _ : Token.lexeme (c :: rest) with
      | none => none
      | some (t, rest') => match r.step t with
        | none => none
        | some r' => run r' rest'
termination_by cs.length
decreasing_by
  · exact Nat.lt_succ_self _
  · rename_i h
    exact Token.lexeme_length h

end Reader

/-- The value that a text holds, if it is JSON and nothing else. -/
def parse? (s : String) : Option Json := Reader.run (.value []) s.toList

end ScriptGraph.Json
