import RobotHost.Shell.Direction
import RobotHost.Shell.Own.Basic
import RobotHost.Shell.Program

/-!
# Processes of a shell

The state in which new processes begin, and what the shell does around the commands that it runs:
it leaves loops, answers for what its commands print, and begins with certain parameters.
-/

namespace RobotHost.Shell

/-! ## New processes -/

/-- The traps that new processes keep: signals that are ignored. -/
def ignored (s : Shell) : List (Nat × String) := s.traps.filter fun t => t.2.isEmpty

/-- A copy of the shell that runs as a process of its own. -/
def child (s : Shell) (process : Nat) : Shell :=
  { s with process, parent := s.process, traps := s.ignored, pending := [], jobs := [] }

/-- The shell in which a new shell of this name begins. -/
def fresh (s : Shell) (name : String) : Shell :=
  { system := s.system, directory := s.directory, descriptors := s.descriptors
    process := s.process, parent := s.parent, root := s.process, mask := s.mask, limits := s.limits
    name, parameters := s.exported, traps := s.ignored, line := 0 }

/-- The shell with descriptors led to these channels. -/
def withChannels (led : List (Nat × Nat)) (s : Shell) : Shell :=
  { s with
    descriptors := led ++ s.descriptors.filter fun e => (led.lookup e.1).isNone }

/-- Keeps a number for a new job. A job that is over and had this number is forgotten. -/
def claimNumber : Run Nat := do
  let s ← get
  let n := s.freeNumber
  set { s with jobs := s.jobs.filter fun j => j.number ≠ n }
  return n

/-- Makes a pipe. The answer is the channels to read and to write it. -/
def makePipe : Run (Nat × Nat) := do
  let s ← get
  let (reader, writer, system) := s.system.addPipe ""
  set { s with system }
  return (reader, writer)

/-- The signals that mean an interruption from the keyboard. -/
def keyboardSignals : List Nat := [2, 3]

/-- Makes the process deaf to the keyboard. -/
def ignoreKeyboard : Run Unit :=
  modify fun s =>
    { s with
      traps := keyboardSignals.map (·, "") ++
        s.traps.filter fun t => t.1 ∉ keyboardSignals }

/-! ## Around commands -/

/-- Does something and says how it was broken off, if it was. -/
def outcome (act : Run Unit) : Run (Option Jump) := do
  try
    act
    return none
  catch j => return some j

/-- Notes the line of a command. -/
def atLine (line : Nat) : Run Unit := modify fun s => { s with line }

/-- Runs a command of the shell: what it prints is written at its end. -/
def asOwn (name : String) (act : Run Nat) : Run Nat := do
  let before := (← get).commandName
  modify fun s => { s with commandName := some name }
  let answered : Run Nat := do
    let status ← act
    if ← flush then return status
    complain (name ++ ": I/O error")
    return status ||| 1
  afterwards answered fun s => { s with commandName := before, unwritten := "" }

/-- Takes the running loop off what is passed over. The answer is what becomes of the loop. -/
def passLoop : Run Skip := do
  let s ← get
  let go (rest after : Skip) : Run Skip := do
    set { s with skip := rest }
    return after
  match s.skip with
  | .stop n => if n ≤ 1 then go .nothing (.stop 1) else go (.stop (n - 1)) (.stop 1)
  | .next n => if n ≤ 1 then go .nothing (.next 1) else go (.next (n - 1)) (.stop 1)
  | k => return k

/-- Whether commands are passed over. -/
def isSkipping : Run Bool := return (← get).skip ≠ .nothing

/-- The shell where a function or a script in a file ends. -/
def endFunction (s : Shell) : Shell :=
  match s.skip with
  | .finish _ => { s with skip := .nothing }
  | _ => s

/-- Writes a command to a channel before it is run, if the options say so. -/
def trace (channel : Option Nat) (words : List String) : Run Unit := do
  let s ← get
  if s.has .xtrace then
    let text := (s.value? "PS4").getD "" ++ String.intercalate " " words ++ "\n"
    if let some system := channel.bind fun c => s.system.write? c text then set { s with system }

/-! ## Beginning -/

/-- The path of the directory: the one that the parameters tell if it is right. -/
def shownPath (s : Shell) : String :=
  let real := spread (pathOf s.directory)
  match s.value? "PWD" with
  | some path =>
    if path.startsWith "/" &&
        (s.system.files.locateDirectory s.directory (gather path)).toOption = some s.directory then
      path
    else real
  | none => real

/-- Sets the parameters that every shell begins with. -/
def prepare : Run Unit := do
  let s ← get
  let unlessGiven (name value : String) : Run Unit :=
    if (s.value? name).isSome then pure () else assign name value
  let path := s.shownPath
  modify fun s => { s with shownDirectory := path }
  assignExported "PWD" path
  assign "IFS" defaultSeparators
  assign "OPTIND" "1"
  assign "PPID" (toString s.parent)
  unlessGiven "PS1" "# "
  unlessGiven "PS2" "> "
  unlessGiven "PS4" "+ "

/-- The whole text that can be read from a descriptor. -/
def readAll (descriptor : Nat) : Run String := do
  let text := ((← get).ahead? descriptor).getD []
  advance descriptor text.length
  return String.ofList text

/-- The text of a script in a file. A directory holds none. -/
def readScript (path : String) : Run String := do
  match ← openPath path .read with
  | .ok channel => return String.ofList (((← get).system.ahead? channel).getD [])
  | .error e => fail (cannotOpen false path e)

/-- The path of a script that is named without a slash. -/
def scriptPath (name : String) : Run String := do
  if name.toList.contains '/' then return name
  let s ← get
  match (s.programPaths none name).find? s.isFile with
  | some path => return path
  | none => fail (name ++ ": not found")

end RobotHost.Shell
