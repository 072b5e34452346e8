import Haptics.CommandLine
/-!
# The server program

The program as it is called from a command line. It answers its arguments; the text of a
configuration file is not read here, so a file that exists is turned down in words.
-/

namespace Haptics

/-- Whether there is something at a path. -/
def pathExists (path : String) : IO Bool := do
  match ← (IO.FS.realPath path).toBaseIO with
  | .ok _ => return true
  | .error _ => return false

/-- How the program ends on a configuration file that exists. -/
def CommandLine.unread : Ending :=
  { exitCode := 1, text := "ERROR: Config files cannot be read by this build\n" }

/-- Runs the program and gives its exit code. -/
def runProgram (arguments : List String) : IO UInt32 := do
  let line := CommandLine.parse arguments
  let found ←
    match line with
    | .run path => pathExists path
    | _ => pure false
  let ending := (line.ending? found).getD CommandLine.unread
  (← IO.getStderr).putStr ending.text
  return ending.exitCode

end Haptics

def main (arguments : List String) : IO UInt32 := Haptics.runProgram arguments
