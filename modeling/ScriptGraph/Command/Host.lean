/-!
# Hosts and outcomes

A command reads and writes files through a host, in whatever monad the host lives. What
it prints is part of its outcome.
-/
namespace ScriptGraph.Command

/-- Why a file could not be read or written. -/
inductive AccessError
  | notFound
  | denied
  /-- A path goes on behind a file. -/
  | notFolder
  | isFolder
  | nameTooLong
  /-- The content is not encoded text. -/
  | notText
  | other (text : String)
deriving DecidableEq

def AccessError.message : AccessError → String
  | notFound => "No such file or directory (os error 2)"
  | denied => "Permission denied (os error 13)"
  | notFolder => "Not a directory (os error 20)"
  | isFolder => "Is a directory (os error 21)"
  | nameTooLong => "File name too long (os error 36)"
  | notText => "stream did not contain valid UTF-8"
  | other text => text

/-- What a command needs of the system it runs on. -/
structure Host (m : Type → Type) where
  read : String → m (Except AccessError String)
  write : String → String → m (Except AccessError Unit)
  /-- A running time in milliseconds. -/
  clock : m Nat
  /-- A seed for when the user gives none. -/
  seed : m Nat

/-- How much is logged: everything at least as important as the level. -/
inductive Level
  | error
  | warn
  | info
  | debug
  | trace
deriving DecidableEq

namespace Level

def text : Level → String
  | error => "error"
  | warn => "warn"
  | info => "info"
  | debug => "debug"
  | trace => "trace"

/-- The name of a level in front of a log line. -/
def label : Level → String
  | error => "ERROR"
  | warn => "WARN"
  | info => "INFO"
  | debug => "DEBUG"
  | trace => "TRACE"

def all : List Level := [error, warn, info, debug, trace]

def ofText? (s : String) : Option Level := all.find? (·.text == s)

/-- How unimportant a level is. -/
def rank : Level → Nat
  | error => 0
  | warn => 1
  | info => 2
  | debug => 3
  | trace => 4

end Level

/-- Something told to the user beside the output proper. -/
inductive Message
  | note (text : String)
  | log (level : Level) (text : String)

/-- Whether a message is shown at a level; notes always are. -/
def Message.shownAt (level : Level) : Message → Bool
  | note _ => true
  | log l _ => l.rank ≤ level.rank

/-- How a command ends: its exit code, the lines of its output, and its messages. -/
structure Outcome where
  exit : Nat
  output : List String
  messages : List Message

/-- Ends a command with an error after some messages. -/
def Outcome.failure (messages : List Message) (text : String) : Outcome :=
  ⟨1, [], messages ++ [.note ("\nError: " ++ text)]⟩

end ScriptGraph.Command
