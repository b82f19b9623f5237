import RobotHost.NameMap
import RobotHost.Shell.Command
import RobotHost.Shell.Signal
import RobotHost.Shell.System

/-!
# The state of a shell

What a running shell knows: its parameters, functions and options, where its descriptors lead, its
traps and its jobs. A part of a run is a `Run`: it changes the shell and ends with an answer, or is
broken off by a `Jump`.
-/

namespace RobotHost.Shell

/-- A parameter with a name. -/
structure Parameter where
  /-- It may have been made known without a value. -/
  value : Option String := none
  /-- Whether programs see it. -/
  exported : Bool := false
  /-- Whether it keeps its value forever. -/
  fixed : Bool := false

/-! ## Options -/

inductive Flag where
  | errexit | noglob | ignoreeof | interactive | monitor | noexec | stdin | xtrace | verbose | vi
  | emacs | noclobber | allexport | notify | nounset | privileged | nolog | debug
deriving DecidableEq, Repr

namespace Flag

def all : List Flag :=
  [errexit, noglob, ignoreeof, interactive, monitor, noexec, stdin, xtrace, verbose, vi, emacs,
    noclobber, allexport, notify, nounset, privileged, nolog, debug]

def name : Flag → String
  | errexit => "errexit"
  | noglob => "noglob"
  | ignoreeof => "ignoreeof"
  | interactive => "interactive"
  | monitor => "monitor"
  | noexec => "noexec"
  | stdin => "stdin"
  | xtrace => "xtrace"
  | verbose => "verbose"
  | vi => "vi"
  | emacs => "emacs"
  | noclobber => "noclobber"
  | allexport => "allexport"
  | notify => "notify"
  | nounset => "nounset"
  | privileged => "privileged"
  | nolog => "nolog"
  | debug => "debug"

def letter? : Flag → Option Char
  | errexit => some 'e'
  | noglob => some 'f'
  | ignoreeof => some 'I'
  | interactive => some 'i'
  | monitor => some 'm'
  | noexec => some 'n'
  | stdin => some 's'
  | xtrace => some 'x'
  | verbose => some 'v'
  | vi => some 'V'
  | emacs => some 'E'
  | noclobber => some 'C'
  | allexport => some 'a'
  | notify => some 'b'
  | nounset => some 'u'
  | privileged => some 'p'
  | nolog | debug => none

end Flag

/-! ## Jobs -/

/-- A command that runs beside the shell. -/
structure Job where
  number : Nat
  /-- The number of its last process. -/
  process : Nat
  /-- When it ends, and how. -/
  time : Nat
  ending : Ending
  /-- Whether it was waited for. -/
  isWaited : Bool := false
  /-- The signals that it got. -/
  received : List Sent := []
  /-- When and how it ends if it gets these signals. -/
  endsWith : List Sent → Nat × Ending

/-! ## Breaking off -/

/-- How the run of commands is broken off. -/
inductive Jump where
  /-- An error, which ends the shell unless a command of its own catches it. -/
  | fault
  /-- The shell is told to end. -/
  | leave
  /-- The shell is at its end. -/
  | finish
  /-- The process ended as another program. -/
  | replaced (code : Nat)
  /-- A signal ends the process at once. -/
  | killed (signal : Nat)
deriving DecidableEq, Repr

/-- What is passed over before commands are run again. -/
inductive Skip where
  | nothing
  /-- So many loops end. -/
  | stop (loops : Nat)
  /-- All but one of so many loops end, and that one goes on. -/
  | next (loops : Nat)
  /-- The function ends; `told` says whether it was told its status. -/
  | finish (told : Bool)
deriving DecidableEq, Repr

/-- What is put back when a command ends. -/
inductive Shadowed where
  | parameter (name : String) (before : Option Parameter)
  | flags (before : List Flag)

end Shell

open Shell in
/-- A running shell. -/
structure Shell where
  system : System
  directory : Place
  /-- The path of the directory as the shell shows it. -/
  shownDirectory : String := ""
  /-- Where descriptors lead: the numbers of channels. -/
  descriptors : List (Nat × Nat) := []
  /-- The number of its process, of the one that began it, and of the shell that it belongs to. -/
  process : Nat := 0
  parent : Nat := 0
  root : Nat := 0
  /-- What is not allowed for new files. -/
  mask : Nat := 0o22
  /-- The limits that were set: for each letter the lower one and the upper one. -/
  limits : List (Char × Option Nat × Option Nat) := []
  name : String
  args : List String := []
  parameters : NameMap Parameter := .empty
  functions : NameMap Command := .empty
  aliases : NameMap String := .empty
  /-- Where programs were found. -/
  hashed : NameMap String := .empty
  flags : List Flag := []
  /-- For each command that runs and may shadow things, what it shadows, the last first. -/
  shadowed : List (List Shadowed) := []
  /-- How many functions run within each other. -/
  calls : Nat := 0
  /-- How many loops the running command is in. -/
  loops : Nat := 0
  skip : Skip := .nothing
  /-- The exit status of the last command. -/
  status : Nat := 0
  /-- The status that the shell goes back to after a trap, or ends with. -/
  savedStatus : Option Nat := none
  /-- The exit status of the last command that stood for its output. -/
  outputStatus : Nat := 0
  /-- What is done when signals come; number 0 is the end of the shell. -/
  traps : List (Nat × String) := []
  /-- The signals that came and whose traps were not run. -/
  pending : List Nat := []
  /-- The jobs, the last one first. -/
  jobs : List Job := []
  lastJob : Option Nat := none
  /-- The argument that options are read from next, and the place in it. -/
  optionIndex : Nat := 1
  optionPlace : Option Nat := none
  /-- The line of the command that runs, and its name if it is one of the shell. -/
  line : Nat := 1
  commandName : Option String := none
  /-- What was printed and not yet written. -/
  unwritten : String := ""

namespace Shell

abbrev Run := ExceptT Jump (StateM Shell)

def has (s : Shell) (f : Flag) : Bool := s.flags.contains f

/-! ## Parameters -/

/-- The letters of the options that are set. -/
def letters (s : Shell) : String :=
  String.ofList ((Flag.all.reverse.filter s.has).filterMap Flag.letter?)

/-- The value of a parameter that has one. -/
def value? (s : Shell) (name : String) : Option String :=
  match name with
  | "?" => some (toString s.status)
  | "#" => some (toString s.args.length)
  | "$" => some (toString s.root)
  | "!" => s.lastJob.map toString
  | "-" => some s.letters
  | "0" => some s.name
  | _ =>
    if name.toList.all Char.isDigit then
      match (digits 10 0 name.toList).1 with
      | 0 => some s.name
      | n + 1 => s.args[n]?
    else (s.parameters.get? name).bind Parameter.value

def defaultSeparators : String := " \t\n"

/-- The characters at which values are split. -/
def separators (s : Shell) : List Char := ((s.value? "IFS").getD defaultSeparators).toList

/-- The parameters that a program sees. -/
def exported (s : Shell) : NameMap Parameter :=
  .ofList (s.parameters.entries.filter fun e => e.2.exported)

/-! ## Descriptors -/

def channel? (s : Shell) (descriptor : Nat) : Option Nat := s.descriptors.lookup descriptor

/-- Leads a descriptor to a channel, or closes it. -/
def direct (descriptor : Nat) (channel : Option Nat) : Run Unit :=
  modify fun s =>
    let others := s.descriptors.filter fun e => e.1 ≠ descriptor
    { s with
      descriptors :=
        match channel with
        | some c => (descriptor, c) :: others
        | none => others }

/-- Writes to a descriptor. The answer says whether it could. -/
def write (descriptor : Nat) (text : String) : Run Bool := do
  let s ← get
  if text.isEmpty then return true
  match (s.channel? descriptor).bind fun c => s.system.write? c text with
  | some system =>
    set { s with system }
    return true
  | none => return false

/-- Prints a text, which is written when the running command ends. -/
def print (text : String) : Run Unit :=
  modify fun s => { s with unwritten := s.unwritten ++ text }

/-- Writes what was printed. The answer says whether it could. -/
def flush : Run Bool := do
  let text := (← get).unwritten
  modify fun s => { s with unwritten := "" }
  write 1 text

/-- What can be read from a descriptor. -/
def ahead? (s : Shell) (descriptor : Nat) : Option (List Char) := do
  s.system.ahead? (← s.channel? descriptor)

/-- Passes over characters of a descriptor. -/
def advance (descriptor count : Nat) : Run Unit :=
  modify fun s =>
    match s.channel? descriptor with
    | some c => { s with system := s.system.advance c count }
    | none => s

/-- Opens a path. The answer is the number of a channel. -/
def openPath (path : String) (how : Opening) : Run (Except FileFault Nat) := do
  let s ← get
  match s.system.openPath s.directory (gather path) how with
  | .error e => return .error e
  | .ok (.descriptor n, _) =>
    match s.channel? n with
    | some c => return .ok c
    | none => return .error .noDevice
  | .ok (.channel c, system) =>
    let (n, system) := system.addChannel c
    set { s with system }
    return .ok n

/-! ## Errors -/

/-- Says what is wrong, with the name of the shell, the line and the command. -/
def complain (text : String) : Run Unit := do
  let s ← get
  let command := (s.commandName.map (· ++ ": ")).getD ""
  discard (write 2 (s.name ++ ": " ++ toString s.line ++ ": " ++ command ++ text ++ "\n"))

/-- Breaks off with an error. -/
def fail {α : Type} (text : String) : Run α := do
  complain text
  discard flush
  modify fun s => { s with status := 2 }
  throw .fault

/-- A number given to a command of the shell. -/
def numberOf (text : String) : Run Nat := do
  match count? text with
  | some n => return n
  | none => fail ("Illegal number: " ++ text)

/-! ## Changing parameters -/

/-- Sets the argument that options are read from next. -/
def resetOptions (text : String) : Run Unit := do
  let n ← numberOf text
  modify fun s => { s with optionIndex := max n 1, optionPlace := none }

/-- What is to be done when a parameter gets another value. -/
def noticeChange (name value : String) : Run Unit := do
  if name = "OPTIND" then resetOptions value
  else if name = "PATH" then modify fun s => { s with hashed := .empty }

def setParameter (name : String) (p : Option Parameter) : Run Unit :=
  modify fun s =>
    { s with
      parameters :=
        match p with
        | some p => s.parameters.insert name p
        | none => s.parameters.erase name }

/-- Changes a parameter. Those that are fixed have no changes. -/
def change (name : String) (value : Option String) (f : Parameter → Parameter) : Run Unit := do
  let s ← get
  let p := (s.parameters.get? name).getD {}
  if p.fixed then fail (name ++ ": is read only")
  noticeChange name (value.getD "")
  let p := f { p with value, exported := p.exported || (s.has .allexport && value.isSome) }
  let isKept := p.value.isSome || p.exported || p.fixed
  setParameter name (if isKept then some p else none)

/-- The part of a text before a sign, which may name a parameter. -/
def nameOf (text : String) : String := String.ofList (text.toList.takeWhile (· ≠ '='))

/-- Refuses what cannot name a parameter. -/
def checkName (name : String) : Run Unit := do
  if !isName name then fail (name ++ ": bad variable name")

/-- Gives a parameter a value. -/
def assign (name value : String) : Run Unit := do
  checkName name
  change name (some value) id

/-- Takes a parameter away. -/
def forget (name : String) : Run Unit := do
  checkName name
  let s ← get
  if ((s.parameters.get? name).getD {}).fixed then fail (name ++ ": is read only")
  noticeChange name ""
  setParameter name none

/-! ## Shadows -/

/-- Shadows a parameter or, at a dash, the options until the running command ends. A text with an
equals sign also gives the parameter a value. -/
def shadow (exported : Bool) (text : String) : Run Unit := do
  let s ← get
  let keep (entry : Shadowed) : Run Unit :=
    modify fun s =>
      match s.shadowed with
      | top :: below => { s with shadowed := (entry :: top) :: below }
      | [] => s
  if text = "-" then keep (.flags s.flags)
  else
    let name := nameOf text
    let value :=
      if name.length < text.length then some (String.ofList (text.toList.drop (name.length + 1)))
      else none
    let mark (p : Parameter) : Parameter := { p with exported := p.exported || exported }
    match s.parameters.get? name, value with
    | none, some v =>
      change name (some v) mark
      keep (.parameter name none)
    | none, none =>
      checkName name
      setParameter name (some (mark {}))
      keep (.parameter name none)
    | some p, some v =>
      keep (.parameter name (some p))
      change name (some v) mark
    | some p, none => keep (.parameter name (some p))

/-- Puts something back as it was. -/
def Shadowed.restore : Shadowed → Run Unit
  | flags before => modify fun s => { s with flags := before }
  | parameter name none => do
    setParameter name (((← get).parameters.get? name).map fun p => { p with fixed := false })
    forget name
  | parameter name (some p) => do
    if let some v := p.value then noticeChange name v
    setParameter name (some p)

/-- Puts back what was shadowed since only so many commands shadowed something. -/
def unshadow (depth : Nat) : (fuel : Nat) → Run Unit
  | 0 => return
  | fuel + 1 => do
    match (← get).shadowed with
    | top :: below =>
      if depth < (top :: below).length then
        modify fun s => { s with shadowed := below }
        top.forM Shadowed.restore
        unshadow depth fuel
    | [] => return

/-! ## Options of commands -/

/-- Reads the letters in an argument, and the last of them apart if it has its value in the next
argument. A colon behind an `allowed` letter says that it has a value. -/
def lettersIn (allowed : String) : List Char → Run (List (Char × String) × Option Char)
  | [] => return ([], none)
  | c :: cs => do
    match allowed.toList.dropWhile (· ≠ c), cs with
    | [], _ => fail ("Illegal option -" ++ String.singleton c)
    | _ :: ':' :: _, [] => return ([], some c)
    | _ :: ':' :: _, cs => return ([(c, String.ofList cs)], none)
    | _, cs =>
      let (more, last) ← lettersIn allowed cs
      return ((c, "") :: more, last)

/-- Takes options from the start of arguments. -/
def takeLetters (allowed : String) : List String → Run (List (Char × String) × List String)
  | [] => return ([], [])
  | arg :: rest => do
    match arg.toList with
    | ['-', '-'] => return ([], rest)
    | '-' :: c :: cs =>
      match ← lettersIn allowed (c :: cs), rest with
      | (first, none), rest =>
        let (more, rest) ← takeLetters allowed rest
        return (first ++ more, rest)
      | (_, some c), [] => fail ("No arg for -" ++ String.singleton c ++ " option")
      | (first, some c), value :: rest =>
        let (more, rest) ← takeLetters allowed rest
        return (first ++ (c, value) :: more, rest)
    | _ => return ([], arg :: rest)

/-! ## Afterwards -/

/-- Goes on after an action as before it, whether it ends or breaks off. -/
def afterwards {α : Type} (act : Run α) (restore : Shell → Shell) : Run α := do
  try
    let x ← act
    modify restore
    return x
  catch j =>
    modify restore
    throw j

end Shell

end RobotHost
