import RobotHost.Files.Basic
import RobotHost.Shell.Bytes

/-!
# What processes share

The files, what is open, the time, and the signals that were sent. A *channel* is something that was
opened once; all descriptors that were copied from one another lead to the same channel and share
its position. A *pipe* holds what was written to it and not yet read.

Processes run one after another: a process that runs beside others is over before the next one goes
on, and only the time at which it ends is later.
-/

namespace RobotHost.Shell

/-- Where a channel leads. -/
inductive Target where
  | null
  | zero
  | full
  | directory
  | file (p : Place)
  | pipe (number : Nat)

structure Channel where
  target : Target
  position : Nat := 0
  readable : Bool := true
  writable : Bool := true
  appends : Bool := false

/-- A text that is written at one end and read at the other. -/
structure Pipe where
  ahead : List Char := []
  /-- What was written since the pipe was read, the last text first. -/
  behind : List String := []

def Pipe.text (p : Pipe) : List Char := p.ahead ++ p.behind.reverse.flatMap String.toList

/-- A signal that a process has yet to take. -/
structure Sent where
  process : Nat
  signal : Nat
  time : Nat

structure System where
  files : Files
  channels : Array Channel := #[]
  pipes : Array Pipe := #[]
  /-- The time, in billionths of a second. -/
  time : Nat := 1
  /-- The number of the next process. -/
  nextProcess : Nat := 1000
  /-- The processes that run beside others, with the times at which they end. -/
  processes : List (Nat × Nat) := []
  signals : List Sent := []

/-- How a file is to be opened. -/
inductive Opening where
  | read
  | write
  | append
  | readWrite
deriving DecidableEq, Repr

namespace Opening

def reads : Opening → Bool
  | read | readWrite => true
  | write | append => false

def writes : Opening → Bool
  | read => false
  | write | append | readWrite => true

end Opening

/-- What becomes of opening a path: a new channel, or another descriptor. -/
inductive Opened where
  | channel (c : Channel)
  | descriptor (number : Nat)

namespace System

/-! ## Opening -/

/-- Opens a path. A file that is written is made if it is not there. -/
def openPath (s : System) (directory : Place) (path : String) (how : Opening) :
    Except FileFault (Opened × System) := do
  let channel (target : Target) : Opened :=
    .channel
      { target, readable := how.reads, writable := how.writes, appends := how = .append }
  let p ←
    if how.writes then s.files.locateNew directory path else s.files.locate directory path
  let file (content : ByteArray) : Opened × System :=
    (channel (.file p), { s with files := (s.files.put p (.data content)).touch p s.time })
  match s.files.node? p with
  | some .directory => return (channel .directory, s)
  | some (.device .null) => return (channel .null, s)
  | some (.device .zero) => return (channel .zero, s)
  | some (.device .full) => return (channel .full, s)
  | some (.device .terminal) => throw .noDevice
  | some (.device (.descriptor n)) => return (.descriptor n, s)
  | some (.link _) => throw .missing
  | some (.data _) | some (.program _) =>
    return if how = .write then file .empty else (channel (.file p), s)
  | none => if how.writes then return file .empty else throw .missing

/-- Keeps a channel. The answer is its number. -/
def addChannel (s : System) (c : Channel) : Nat × System :=
  (s.channels.size, { s with channels := s.channels.push c })

/-- Makes a pipe that holds a text. The answer is the numbers of the channels to read and to write
it. -/
def addPipe (s : System) (text : String) : Nat × Nat × System :=
  let s' := { s with pipes := s.pipes.push { behind := [text] } }
  let (reader, s') := s'.addChannel { target := .pipe s.pipes.size, writable := false }
  let (writer, s') := s'.addChannel { target := .pipe s.pipes.size, readable := false }
  (reader, writer, s')

/-! ## Reading and writing -/

/-- Changes a channel. -/
def setChannel (s : System) (n : Nat) (c : Channel) : System :=
  { s with channels := s.channels.setIfInBounds n c }

def setPipe (s : System) (n : Nat) (p : Pipe) : System :=
  { s with pipes := s.pipes.setIfInBounds n p }

/-- The content of a file. -/
def content (s : System) (p : Place) : ByteArray :=
  match s.files.node? p with
  | some (.data content) => content
  | some (.program _) => Files.programBytes
  | _ => .empty

/-- How much is read at once of something without an end. -/
def endless : Nat := 4096

/-- What can be read from a channel; nothing is said if it cannot be read. -/
def ahead? (s : System) (n : Nat) : Option (List Char) := do
  let c ← s.channels[n]?
  if !c.readable then none
  else
    match c.target with
    | .null => some []
    | .zero | .full => some (List.replicate endless '\x00')
    | .directory => none
    | .file p =>
      let content := s.content p
      some (ofBytes (content.extract c.position content.size)).toList
    | .pipe number => (s.pipes[number]?).map Pipe.text

/-- The length of a line with its end. -/
def lineLength (content : ByteArray) (start : Nat) : (fuel : Nat) → Nat
  | 0 => 0
  | fuel + 1 =>
    match content[start]? with
    | none => 0
    | some b => if b = 10 then 1 else lineLength content (start + 1) fuel + 1

/-- A line of what can be read from a channel, with its end if it has one. -/
def lineAhead? (s : System) (n : Nat) : Option (List Char) := do
  let c ← s.channels[n]?
  match c.target with
  | .file p =>
    let content := s.content p
    let size := lineLength content c.position (content.size - c.position)
    if c.readable then
      some (ofBytes (content.extract c.position (c.position + size))).toList
    else none
  | _ =>
    let text ← s.ahead? n
    let line := text.takeWhile (· ≠ '\n')
    some (line ++ (text.drop line.length).take 1)

/-- Passes over so many characters of a channel. -/
def advance (s : System) (n count : Nat) : System :=
  match s.channels[n]? with
  | none => s
  | some c =>
    match c.target with
    | .file _ => s.setChannel n { c with position := c.position + count }
    | .pipe number =>
      match s.pipes[number]? with
      | some p => s.setPipe number { ahead := p.text.drop count }
      | none => s
    | _ => s

/-- Puts bytes into a content at a position; what is missing before them is zero. -/
def overwritten (content bytes : ByteArray) (position : Nat) : ByteArray :=
  let gap : ByteArray := ⟨Array.replicate (position - content.size) 0⟩
  content.extract 0 position ++ gap ++ bytes ++
    content.extract (position + bytes.size) content.size

/-- Writes to a channel, if it takes what is written. -/
def write? (s : System) (n : Nat) (text : String) : Option System := do
  let c ← s.channels[n]?
  if !c.writable then none
  else
    match c.target with
    | .null | .zero => some s
    | .full | .directory => none
    | .file p =>
      let content := s.content p
      let bytes := toBytes text
      let position := if c.appends then content.size else c.position
      let content := overwritten content bytes position
      let s := { s with files := (s.files.put p (.data content)).touch p s.time }
      some (s.setChannel n { c with position := position + bytes.size })
    | .pipe number =>
      let p ← s.pipes[number]?
      some (s.setPipe number { p with behind := text :: p.behind })

/-! ## Processes -/

/-- How long it takes to begin a process. -/
def startTime : Nat := 1000

/-- Begins a process. The answer is its number. -/
def begin (s : System) : Nat × System :=
  (s.nextProcess, { s with nextProcess := s.nextProcess + 1, time := s.time + startTime })

/-- Notes when a process ends that runs beside others. -/
def note (s : System) (process time : Nat) : System :=
  { s with processes := (process, time) :: s.processes.filter fun p => p.1 ≠ process }

/-- Whether a process that began beside others still runs. -/
def runs (s : System) (process : Nat) : Bool :=
  s.processes.any fun p => p.1 = process && s.time ≤ p.2

end System

end RobotHost.Shell
