import RobotHost.Config.Section
import RobotHost.Process.Error

/-!
# Processes

A process is a program that the host runs, or a service that answers for itself.

A program that *runs once* is run to its end by the first start that succeeds; later starts find
that it ran, and stopping does nothing. Any other program is *supervised*: a start spawns a child
unless one is held, and a stop gives the child up. So starting a started process changes nothing.
-/

namespace RobotHost

/-! ## The host -/

/-- How a run of a program to its end turns out. -/
inductive RunOutcome where
  /-- The program could not be run. -/
  | failed (reason : String)
  | exited (code : Nat)
deriving DecidableEq, Repr

/-- The system that runs programs. Each call on it has a number, in the order of the calls, and may
turn out differently for each. -/
structure Host where
  /-- Runs a program to its end. -/
  run : (call : Nat) → ProcessConfig → RunOutcome
  /-- Starts a program beside others; the answer is why it could not, if so. -/
  spawn : (call : Nat) → ProcessConfig → Option String
  /-- Ends a child, named by the call that spawned it, unless it ended already; the answer is why it
  could not, if so. -/
  release : (call : Nat) → (child : Nat) → Option String

/-! ## Programs -/

structure Program where
  config : ProcessConfig
  /-- The child that is held, by the number of the call that spawned it. -/
  child : Option Nat := none
  /-- Whether it was ever started with success. -/
  ranBefore : Bool := false

/-- What came of starting or stopping something: how it went, how the thing is now, and the number
of the next call on the host. -/
structure Attempt (α : Type) where
  outcome : Except ProcessError Unit
  after : α
  nextCall : Nat

namespace Program

/-- Runs a program that has not run with success before. -/
def startOnce (h : Host) (call : Nat) (p : Program) : Attempt Program :=
  if p.ranBefore then ⟨.ok (), p, call⟩
  else
    match h.run call p.config with
    | .failed reason => ⟨.error (.spawn p.config.id reason), p, call + 1⟩
    | .exited 0 => ⟨.ok (), { p with ranBefore := true }, call + 1⟩
    | .exited code => ⟨.error (.exited p.config.id code), p, call + 1⟩

/-- Spawns a child unless one is held. -/
def startSupervised (h : Host) (call : Nat) (p : Program) : Attempt Program :=
  if p.child.isSome then ⟨.ok (), p, call⟩
  else
    match h.spawn call p.config with
    | some reason => ⟨.error (.spawn p.config.id reason), p, call + 1⟩
    | none => ⟨.ok (), { p with child := some call, ranBefore := true }, call + 1⟩

def start (h : Host) (call : Nat) (p : Program) : Attempt Program :=
  if p.config.oneShot then p.startOnce h call else p.startSupervised h call

/-- Gives the child up, also when it cannot be ended. -/
def stop (h : Host) (call : Nat) (p : Program) : Attempt Program :=
  match p.child with
  | none => ⟨.ok (), p, call⟩
  | some child =>
    match h.release call child with
    | none => ⟨.ok (), { p with child := none }, call + 1⟩
    | some reason => ⟨.error (.kill p.config.id reason), { p with child := none }, call + 1⟩

end Program

/-! ## Services -/

/-- What is asked of a service. -/
inductive Signal where
  | start
  | stop
deriving DecidableEq, Repr

/-- A process that is not a program of the host. -/
structure Service where
  id : String
  /-- How it answers a signal after a number of others: nothing if it obeys, else why not. -/
  refusal : Nat → Signal → Option String
  /-- How many signals it has had. -/
  signals : Nat := 0

def Service.send (signal : Signal) (call : Nat) (s : Service) : Attempt Service where
  outcome :=
    match s.refusal s.signals signal with
    | none => .ok ()
    | some reason => .error (.failed s.id reason)
  after := { s with signals := s.signals + 1 }
  nextCall := call

/-! ## Processes -/

inductive Process where
  | program (p : Program)
  | service (s : Service)

namespace Process

/-- The name under which a process is managed. -/
def id : Process → String
  | program p => p.config.id
  | service s => s.id

def start (h : Host) (call : Nat) : Process → Attempt Process
  | program p =>
    let a := p.start h call
    ⟨a.outcome, program a.after, a.nextCall⟩
  | service s =>
    let a := s.send .start call
    ⟨a.outcome, service a.after, a.nextCall⟩

def stop (h : Host) (call : Nat) : Process → Attempt Process
  | program p =>
    let a := p.stop h call
    ⟨a.outcome, program a.after, a.nextCall⟩
  | service s =>
    let a := s.send .stop call
    ⟨a.outcome, service a.after, a.nextCall⟩

theorem id_start (h : Host) (call : Nat) (p : Process) : (p.start h call).after.id = p.id := by
  match p with
  | service _ => rfl
  | program p =>
    simp only [start, id, Program.start, Program.startOnce, Program.startSupervised]
    split <;> split <;> (try rfl) <;> split <;> rfl

theorem id_stop (h : Host) (call : Nat) (p : Process) : (p.stop h call).after.id = p.id := by
  match p with
  | service _ => rfl
  | program p =>
    simp only [stop, id, Program.stop]
    split
    · rfl
    · split <;> rfl

end Process

end RobotHost
