/-!
# Command-line arguments

Options may stand anywhere. A long option takes its value behind an equals sign or as
the next argument, a short one directly behind its letter, behind an equals sign, or as
the next argument. Two dashes end the options. No option may be given twice.
-/
namespace ScriptGraph.Command

/-- An option: its long name, its letter if it has one, and whether it takes a value. -/
structure OptionSpec where
  name : String
  letter : Option Char := none
  takesValue : Bool

inductive UsageError
  | unknownOption (argument : String)
  | missingValue (name : String)
  | unexpectedValue (name : String)
  | unexpectedArgument (argument : String)
  | repeated (name : String)
  | invalidValue (name : String) (value : String)
deriving DecidableEq

def UsageError.message : UsageError → String
  | unknownOption argument => s!"unexpected argument '{argument}'"
  | missingValue name => s!"a value is required for '--{name}'"
  | unexpectedValue name => s!"no value is expected for '--{name}'"
  | unexpectedArgument argument => s!"unexpected argument '{argument}'"
  | repeated name => s!"'--{name}' is given more than once"
  | invalidValue name value => s!"invalid value '{value}' for '--{name}'"

/-- What a command line gives: options with their values, and the other arguments. -/
structure Arguments where
  options : List (String × Option String) := []
  operands : List String := []

namespace Arguments

def addOption (a : Arguments) (name : String) (value : Option String) : Arguments :=
  ⟨(name, value) :: a.options, a.operands⟩

def addOperand (a : Arguments) (operand : String) : Arguments :=
  ⟨a.options, operand :: a.operands⟩

/-- One argument by itself: what it means, or the option that still waits for a value. -/
inductive Reading
  | operand
  | option (name : String) (value : Option String)
  | awaiting (name : String)

/-- Reads the characters behind two dashes. -/
def readLong (specs : List OptionSpec) (argument : String) (body : List Char) :
    Except UsageError Reading :=
  let name := String.ofList (body.takeWhile (· != '='))
  let value := body.dropWhile (· != '=')
  match specs.find? (·.name == name) with
  | none => .error (.unknownOption argument)
  | some spec => match spec.takesValue, value with
    | true, [] => .ok (.awaiting name)
    | true, _ :: text => .ok (.option name (some (String.ofList text)))
    | false, [] => .ok (.option name none)
    | false, _ :: _ => .error (.unexpectedValue name)

/-- Reads a letter behind one dash, and what follows it. -/
def readShort (specs : List OptionSpec) (argument : String) (letter : Char)
    (rest : List Char) : Except UsageError Reading :=
  match specs.find? (·.letter == some letter) with
  | none => .error (.unknownOption argument)
  | some spec => match rest with
    | [] => .ok (.awaiting spec.name)
    | '=' :: text => .ok (.option spec.name (some (String.ofList text)))
    | text => .ok (.option spec.name (some (String.ofList text)))

/-- Reads one argument before the end of options. A dash alone is an operand. -/
def readOne (specs : List OptionSpec) (argument : String) : Except UsageError Reading :=
  match argument.toList with
  | '-' :: '-' :: body => readLong specs argument body
  | '-' :: letter :: rest => readShort specs argument letter rest
  | _ => .ok .operand

/-- Whether an argument can be the value of the option before it. -/
def isValue (argument : String) : Bool :=
  match argument.toList with
  | '-' :: _ :: _ => false
  | _ => true

/-- Reads arguments in order; what was read is kept last one first. -/
def readFrom (specs : List OptionSpec) (before : Arguments) :
    List String → Except UsageError Arguments
  | [] => .ok before
  | "--" :: rest => .ok (rest.foldl addOperand before)
  | argument :: rest =>
    match readOne specs argument with
    | .error e => .error e
    | .ok .operand => readFrom specs (before.addOperand argument) rest
    | .ok (.option name value) => readFrom specs (before.addOption name value) rest
    | .ok (.awaiting name) => match rest with
      | [] => .error (.missingValue name)
      | value :: rest' =>
        if isValue value then readFrom specs (before.addOption name (some value)) rest'
        else .error (.missingValue name)

/-- The first name that occurs twice. -/
def repeated? : List String → Option String
  | [] => none
  | name :: rest => if rest.contains name then some name else repeated? rest

/-- Reads a command line with at most so many operands. -/
def read (specs : List OptionSpec) (maxOperands : Nat) (arguments : List String) :
    Except UsageError Arguments :=
  match readFrom specs ⟨[], []⟩ arguments with
  | .error e => .error e
  | .ok a =>
    let a : Arguments := ⟨a.options.reverse, a.operands.reverse⟩
    match repeated? (a.options.map (·.1)), a.operands.drop maxOperands with
    | some name, _ => .error (.repeated name)
    | none, extra :: _ => .error (.unexpectedArgument extra)
    | none, [] => .ok a

def has (a : Arguments) (name : String) : Bool := a.options.any (·.1 == name)

def value? (a : Arguments) (name : String) : Option String := (a.options.lookup name).join

/-- The digits of a number: a plus sign may stand in front of them. -/
def unsignedDigits : List Char → List Char
  | '+' :: digits => digits
  | digits => digits

/-- The sixty-four-bit number that a text writes in decimal. -/
def word? (s : String) : Option Nat :=
  let digits := unsignedDigits s.toList
  if digits ≠ [] ∧ digits.all Char.isDigit then
    let n := digits.foldl (fun n c => 10 * n + (c.toNat - '0'.toNat)) 0
    if n < 0x10000000000000000 then some n else none
  else none

/-- The number given for an option, or a number to take when it is not given. -/
def word (a : Arguments) (name : String) (default : Nat) : Except UsageError Nat :=
  match a.value? name with
  | none => .ok default
  | some s => match word? s with
    | some n => .ok n
    | none => .error (.invalidValue name s)

end Arguments

end ScriptGraph.Command
