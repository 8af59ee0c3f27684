import NilFlow.CommandLine.Basic

/-!
# The program

* `surroundings`: the workspace that a process sees. Nothing here turns sources into typed trees, so its loader fails.
* `main`: runs the command that the arguments ask for, then writes what it leaves behind.
-/

namespace NilFlow

/-- The content of a file on disk, or why it cannot be read. -/
def readOnDisk (name : String) : IO (Except FileProblem String) := do
  try
    return .ok (← IO.FS.readFile name)
  catch
    | .inappropriateType .. => return .error .isDirectory
    | _ => return .error .missing

/-- The workspace of this process, in which one file has been read. -/
def surroundings (directory file : String) (content : Except FileProblem String) : Workspace where
  directory := directory
  read name := if name = file then content else .error .missing
  creationProblem? _ := none
  load _ _ _ := .error (.failed "no package loader")

def settingsFileOf (args : List String) : String :=
  match Invocation.ofArguments args with
  | .ok i => i.options.configFile
  | .error _ => ""

end NilFlow

open NilFlow in
/-- Runs the command that the arguments ask for. -/
def main (args : List String) : IO UInt32 := do
  let file := settingsFileOf args
  let content ← if file.isEmpty then pure (.error .missing) else readOnDisk file
  let outcome := execute (surroundings (← IO.currentDir).toString file content) args
  for line in outcome.log do
    IO.eprintln line.text
  IO.print outcome.output
  for (name, text) in outcome.written do
    IO.FS.writeFile name text
  for line in outcome.errorLine? do
    IO.eprint line
  return outcome.code
