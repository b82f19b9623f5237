import RobotHost.Shell.Condition
import RobotHost.Shell.Own.Directory
import RobotHost.Shell.Own.Input
import RobotHost.Shell.Own.Job
import RobotHost.Shell.Own.Meaning
import RobotHost.Shell.Own.Option
import RobotHost.Shell.Print

/-!
# Commands of the shell

The commands that the shell answers itself. Those that run other commands are not among them, but
for their options.
-/

namespace RobotHost.Shell

/-! ## Breaking off -/

/-- The commands `break` and `continue`; `skips` says how so many loops are left. -/
def leaveLoops (skips : Nat → Skip) (args : List String) : Run Nat := do
  let n ←
    match args with
    | [] => pure 1
    | arg :: _ =>
      match ← numberOf arg with
      | 0 => fail ("Illegal number: " ++ arg)
      | n => pure n
  modify fun s => if s.loops = 0 then s else { s with skip := skips (min n s.loops) }
  return 0

/-- The command `return`. -/
def leaveFunction (args : List String) : Run Nat := do
  match args with
  | [] =>
    modify fun s => { s with skip := .finish false }
    return (← get).status
  | arg :: _ =>
    let n ← numberOf arg
    modify fun s => { s with skip := .finish true }
    return n

/-- The command `exit`. -/
def leaveShell (args : List String) : Run Nat := do
  if let arg :: _ := args then
    let n ← numberOf arg
    modify fun s => { s with savedStatus := some n }
  throw .leave

/-! ## Telling -/

/-- The command `test`, under either of its names. -/
def testCondition (name : String) (args : List String) : Run Nat := do
  match Condition.ofCommand (← get) name args with
  | .ok holds => return if holds then 0 else 1
  | .error e => fail e.message

/-- The command `printf`. -/
def printFormat (args : List String) : Run Nat := do
  let (_, args) ← takeLetters "" args
  let format :: args := args | fail "usage: printf format [arg ...]"
  let p := printed format args
  p.complaints.forM complain
  print p.text
  if let some text := p.fault then fail text
  return if p.complaints.isEmpty then 0 else 1

/-- The options of `command` that only tell what a name means. -/
def tellMeaning (args : List String) : Run Nat := do
  let (options, names) ← takeLetters "pvV" args
  let has (c : Char) : Bool := options.any fun o => o.1 = c
  match names with
  | name :: _ =>
    if has 'v' || has 'V' then
      tell (!has 'V') (if has 'p' then some usualPath else none) name
    else return 0
  | [] => return 0

/-- How long the shell and its children took. -/
def times : String := "0m0.000000s 0m0.000000s\n0m0.000000s 0m0.000000s\n"

/-! ## All of them -/

def exporting (p : Parameter) : Parameter := { p with exported := true }

def fixing (p : Parameter) : Parameter := { p with fixed := true }

/-- What the command of this name does. -/
def own? (name : String) : Option (List String → Run Nat) :=
  match name with
  | ":" | "true" => some fun _ => return 0
  | "false" => some fun _ => return 1
  | "[" | "test" => some (testCondition name)
  | "alias" => some changeAliases
  | "bg" | "fg" => some resume
  | "break" => some (leaveLoops .stop)
  | "cd" | "chdir" => some changeDirectory
  | "command" => some tellMeaning
  | "continue" => some (leaveLoops .next)
  | "echo" => some fun args => do
    print (echoText args)
    return 0
  | "exit" => some leaveShell
  | "export" => some (declare name exporting Parameter.exported)
  | "getopts" => some readOptions
  | "hash" => some hash
  | "jobs" => some showJobs
  | "kill" => some kill
  | "local" => some shadowAll
  | "printf" => some printFormat
  | "pwd" => some printDirectory
  | "read" => some readLineInto
  | "readonly" => some (declare name fixing Parameter.fixed)
  | "return" => some leaveFunction
  | "set" => some setOptions
  | "shift" => some shift
  | "times" => some fun _ => do
    print times
    return 0
  | "trap" => some trap
  | "type" => some tellAll
  | "ulimit" => some changeLimit
  | "umask" => some changeMask
  | "unalias" => some unalias
  | "unset" => some unset
  | "wait" => some wait
  | _ => none

/-- Whether the shell itself has a command of this name. -/
def isOwn (name : String) : Bool :=
  specialCommands.contains name || ordinaryCommands.contains name

end RobotHost.Shell
