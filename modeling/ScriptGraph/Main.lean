import ScriptGraph.Command.Compile
import ScriptGraph.Command.Generate

/-!
# The command line

With `generate` as its first argument the program writes a sample document; otherwise it
compiles one.
-/
namespace ScriptGraph.Command

/-- The cause of a failed file access. A system may number its errors downward from zero,
which shows as a high code. -/
def accessError : IO.Error → AccessError
  | .noFileOrDirectory .. => .notFound
  | .permissionDenied .. => .denied
  | .inappropriateType _ code _ => if code = 20 ∨ code = 0 - 20 then .notFolder else .isFolder
  | .invalidArgument _ code text =>
    if code = 36 ∨ code = 0 - 36 then .nameTooLong else .other text
  | .userError _ => .notText
  | e => .other (toString e)

def fileHost : Host IO where
  read path := do
    try return .ok (← IO.FS.readFile path)
    catch e => return .error (accessError e)
  write path content := do
    try return .ok (← IO.FS.writeFile path content)
    catch e => return .error (accessError e)
  clock := IO.monoMsNow
  seed := IO.rand 0 0xFFFFFFFFFFFFFFFF

/-- Prints the outcome of a command and gives its exit code. -/
def finish : Except UsageError Outcome → IO UInt32
  | .error e => do
    IO.eprintln ("error: " ++ e.message)
    return 2
  | .ok outcome => do
    for message in outcome.messages do
      match message with
      | .note text => IO.eprintln text
      | .log level text => IO.eprintln (level.label ++ " " ++ text)
    for line in outcome.output do
      IO.println line
    return UInt32.ofNat outcome.exit

end ScriptGraph.Command

open ScriptGraph.Command in
def main (arguments : List String) : IO UInt32 := do
  match arguments with
  | "generate" :: rest => finish (← Generate.run fileHost rest)
  | _ => finish (← Compile.run fileHost arguments)
