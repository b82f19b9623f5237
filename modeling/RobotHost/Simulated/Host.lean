import RobotHost.Process.Basic
import RobotHost.Shell.Run
import RobotHost.Simulated.Tree

/-!
# A simulated host

A host with the usual tree of files, so that what processes do can be told without running them. A
program runs in a tree of its own: what it writes is gone when it ends.
-/

namespace RobotHost.Simulated

def holdsNul : String := "nul byte found in provided data"

/-- The directory in which a program runs. -/
def directoryOf (c : ProcessConfig) : Except FileFault Place :=
  if c.cwd.isEmpty then .ok workingDirectory else files.locateDirectory workingDirectory c.cwd

/-- The program that a process runs. -/
def programOf (c : ProcessConfig) (directory : Place) : Except FileFault String :=
  if c.name.toList.contains '/' then files.program directory c.name
  else if c.name.isEmpty then .error .missing
  else files.search directory c.name searchPath false

/-- The number of the process that begins others. -/
def ownProcess : Nat := 999

/-- The process in which a program runs. It has nothing to read, and nobody sees what it writes. -/
def processIn (c : ProcessConfig) (directory : Place) : Shell where
  system := { files, channels := #[{ target := .null }], nextProcess := ownProcess + 2 }
  directory := directory
  descriptors := [(0, 0), (1, 0), (2, 0)]
  process := ownProcess + 1
  parent := ownProcess
  root := ownProcess + 1
  name := Shell.spread c.name
  parameters := .ofList
    [("HOME", { value := some "/root", exported := true }),
      ("PATH", { value := some (String.intercalate ":" searchPath), exported := true })]

/-- How deep a program nests commands, and how often it repeats them. -/
def depth : Nat := 100000

/-- Finds the program of a process, and the process in which it runs. -/
def find (c : ProcessConfig) : Except String (String × Shell) :=
  if (c.name :: c.cwd :: c.args).any fun s => s.toList.contains '\x00' then .error holdsNul
  else
    let found := do
      let directory ← directoryOf c
      return (← programOf c directory, processIn c directory)
    found.mapError FileFault.message

/-- Runs a program to its end. -/
def run (c : ProcessConfig) : RunOutcome :=
  match find c with
  | .error reason => .failed reason
  | .ok (program, s) =>
    match (Shell.runProgram depth program s.name (c.args.map Shell.spread)).run s with
    | (.ok status, _) | (.error (.replaced status), _) => .exited (status % 256)
    | (.error (.killed signal), _) => .exited (Shell.Ending.killed signal).status
    | (.error _, after) => .exited (after.status % 256)

/-- The simulated host. Children always end when they are told to. -/
def host : Host where
  run _ c := run c
  spawn _ c :=
    match find c with
    | .error reason => some reason
    | .ok _ => none
  release _ _ := none

end RobotHost.Simulated
