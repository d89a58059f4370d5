/-
  NaturalDeduction.Main
  ─────────────────────
  The program `lrcheck`.  It reads the files that its arguments name and the
  nearest settings file, and hands them to `Command.run`, which decides
  everything else.
-/
import NaturalDeduction.Command.Run

namespace NaturalDeduction.Command

/-- The reason for a failed read, from the system's number of the error, which
may come with its sign turned. -/
def faultOfNumber (number : UInt32) (details : String) : ReadFault :=
  let positive := min number.toNat (-number).toNat
  if positive = 2 then .notFound
  else if positive = 20 then .notDirectory
  else if positive = 21 then .isDirectory
  else .other (details ++ " (os error " ++ Nat.repr positive ++ ")")

/-- The reason for a failed read. -/
def faultOfError : IO.Error → ReadFault
  | .noFileOrDirectory _ number details
  | .inappropriateType _ number details
  | .permissionDenied _ number details
  | .invalidArgument _ number details
  | .resourceExhausted _ number details => faultOfNumber number details
  | other => .other (toString other)

/-- Reads a file. -/
def readContents (path : String) : IO Contents := do
  match ← (IO.FS.readBinFile path).toBaseIO with
  | .ok bytes => return decodeText bytes
  | .error error => return .error (faultOfError error)

/-- The paths that a request names. -/
def Request.paths : Request → List String
  | .check request => request.config.toList ++ request.files
  | .help | .checkHelp => []

/-- The surroundings of the program, as far as a request needs them. -/
def loadWorkspace (request : Request) : IO Workspace := do
  let contents ← request.paths.mapM fun path => do return (path, ← readContents path)
  let directory := (pathParts (← IO.currentDir).toString).filter (· ≠ "")
  let settings ← nearestSettings readContents "/" directory.reverse
  return ⟨fun path => (contents.lookup path).getD (.error .notFound), settings⟩

/-- The surroundings of a program that needs none. -/
def emptyWorkspace : Workspace := ⟨fun _ => .error .notFound, none⟩

/-- Runs the program on its arguments and prints what it says. -/
def runProgram (arguments : List String) : IO UInt32 := do
  let level := LogLevel.ofRequest (← IO.getEnv logVariable)
  let workspace ← match Request.ofArguments arguments with
    | .ok request => loadWorkspace request
    | .error _ => pure emptyWorkspace
  let output := run workspace level arguments
  (← IO.getStderr).putStr output.stderr
  (← IO.getStdout).putStr output.stdout
  return output.code.toUInt32

end NaturalDeduction.Command

/-- The program. -/
def main (arguments : List String) : IO UInt32 :=
  NaturalDeduction.Command.runProgram arguments
