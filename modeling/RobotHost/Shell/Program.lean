import RobotHost.Shell.Condition
import RobotHost.Shell.Glob
import RobotHost.Shell.Own.Directory
import RobotHost.Shell.Own.Meaning
import RobotHost.Shell.Print
import RobotHost.Shell.Utility

/-!
# Programs of the host

How a name leads to a program, and what programs do that run no others.
-/

namespace RobotHost.Shell

/-! ## Looking for programs -/

/-- Why a program cannot be run, and the exit status that tells it. -/
structure Refusal where
  fault : FileFault
  status : Nat

/-- What is said of a program that cannot be run. -/
def Refusal.message (r : Refusal) (name : String) : String :=
  name ++ ": " ++
    match r.fault with
    | .missing | .notDirectory => "not found"
    | e => e.reason

/-- Whether a fault on the way to a program means that there is none. -/
def meansAbsent : FileFault → Bool
  | .missing | .notDirectory | .nameTooLong | .tooManyLinks => true
  | _ => false

/-- The program that a name with a slash leads to. -/
def programAt (s : Shell) (path : String) : Except Refusal String :=
  match s.system.files.program s.directory (gather path) with
  | .ok program => .ok program
  | .error e => .error ⟨e, if meansAbsent e then 127 else 126⟩

/-- The program that a name stands for. A file that is no program does not stop the search, but is
blamed at its end. -/
def findProgram (s : Shell) (path : Option String) (name : String) : Except Refusal String :=
  if name.toList.contains '/' then s.programAt name
  else
    let found := (s.programPaths path name).map fun p =>
      (s.system.files.find s.directory (gather p)).toOption
    if found.any fun n => n matches some (.data _) | some (.program _) then
      match found.findSome? fun n => if let some (.program p) := n then some p else none with
      | some program => .ok program
      | none => .error ⟨.notPermitted, 126⟩
    else .error ⟨if found.any Option.isSome then .notPermitted else .missing, 127⟩

/-! ## Running programs -/

/-- Moves the time on. -/
def pass (time : Nat) : Run Unit :=
  modify fun s => { s with system := { s.system with time := s.system.time + time } }

/-- Writes a text. The answer is an exit status. -/
def put (text : String) : Run Nat := do
  return if ← write 1 text then 0 else 1

/-- Copies what can be read from a channel. -/
def copyChannel (channel : Nat) : Run Nat := do
  match (← get).system.ahead? channel with
  | none => return 1
  | some text =>
    modify fun s => { s with system := s.system.advance channel text.length }
    put (String.ofList text)

/-- Copies files to the output; a dash stands for the input. -/
def copyFiles : List String → Run Nat
  | [] => return 0
  | path :: rest => do
    let status ←
      if path = "-" then
        match (← get).channel? 0 with
        | some c => copyChannel c
        | none => pure 1
      else
        match ← openPath path .read with
        | .ok c => copyChannel c
        | .error _ => pure 1
    return max status (← copyFiles rest)

/-- The exit status of the program `test`. -/
def testStatus (s : Shell) (name : String) (args : List String) : Nat :=
  match Condition.ofCommand s name args with
  | .ok holds => if holds then 0 else 1
  | .error _ => 2

/-- Runs a program that runs no others. -/
def runUtility (name : String) (args : List String) : Run Nat := do
  match name with
  | "true" => return 0
  | "false" => return 1
  | "sleep" =>
    match sleepTime args with
    | .ok time =>
      pass time
      return 0
    | .error status => return status
  | "echo" => put (echoText args)
  | "printf" =>
    match args with
    | [] => return 1
    | format :: args =>
      let p := printed format args
      return max (← put p.text) (if p.complaints.isEmpty && p.fault.isNone then 0 else 1)
  | "test" | "[" => return (← get).testStatus name args
  | "pwd" => put (spread (pathOf (← get).directory) ++ "\n")
  | "cat" =>
    match operands? ["--help", "--version"] args with
    | .ok paths => copyFiles (if paths.isEmpty then ["-"] else paths)
    | .error status => return status
  | "ls" =>
    let args := args.filter fun a => a = "--" || !a.startsWith "-"
    let s ← get
    match operands? ["--help", "--version"] args with
    | .ok paths => return if paths.all (Glob.isThere s) then 0 else 2
    | .error status => return status
  | _ => return 127

end RobotHost.Shell
