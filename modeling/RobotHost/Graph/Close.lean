import RobotHost.Graph.Error
import RobotHost.Handle.Basic
import RobotHost.Process.Lifecycle

/-!
# Closing graphs

Closing a graph stops its processes and then closes all its parts, in the order `Kind.closing` and
in ascending order of names. Nothing that fails keeps the rest from being closed; all failures are
reported together.
-/

namespace RobotHost

/-- A part of a graph. -/
structure Part where
  kind : Kind
  name : String
  handle : kind.Handle

namespace Graph

/-- The parts of a kind in ascending order of names. -/
def partsOf (g : Graph) (k : Kind) : List Part :=
  (g.entries k).entries.map fun e => ⟨k, e.1, e.2⟩

/-- All parts, in the order in which they are closed. -/
def closingParts (g : Graph) : List Part := Kind.closing.flatMap g.partsOf

/-- A graph whose processes were stopped. -/
def shutDown (g : Graph) : Graph := { g with manager := g.manager.shutDown }

end Graph

namespace Part

/-- Closes a part, given how to close a connection. -/
def closeVia (hangUp : Connection → StateM World (List CloseFailure)) (p : Part) :
    StateM World (Option CloseFailure) := do
  match p with
  | ⟨.remote, name, h⟩ =>
    match (← get).remotes.get? h with
    | none => return none
    | some remote =>
      match ← hangUp remote.connection with
      | [] => return none
      | failures => return some (.remote name failures)
  | ⟨.driver kind, name, h⟩ =>
    match (← get).actual? (.driver kind) h with
    | none => return none
    | some d => return (← World.closeDriver d).map (.driver kind name)

/-- Closes parts in turn, and collects what fails. -/
def closeEachVia (hangUp : Connection → StateM World (List CloseFailure)) :
    List Part → StateM World (List CloseFailure)
  | [] => return []
  | p :: rest => do
    let failure ← p.closeVia hangUp
    let failures ← closeEachVia hangUp rest
    return failure.toList ++ failures

end Part

/-- Closes a graph, given how to close a connection. -/
def Graph.closeVia (h : Host) (hangUp : Connection → StateM World (List CloseFailure)) (g : Graph) :
    StateM World (List CloseFailure) := do
  let stopped ← g.manager.stopAll h
  let failures ← Part.closeEachVia hangUp g.closingParts
  return (if stopped.isEmpty then [] else [.processes stopped]) ++ failures

namespace World

/-- Closes a connection, no further than `depth` connections away: the robot at the other end closes
all its parts. -/
def hangUpIn (h : Host) : (depth : Nat) → Connection → StateM World (List CloseFailure)
  | 0, _ => return []
  | depth + 1, c => do
    note (.hungUp c)
    match c with
    | .robot r =>
      match (← get).robots.get? r with
      | none => return []
      | some g => g.closeVia h (hangUpIn h depth)
    | .remote r =>
      match (← get).remotes.get? r with
      | none => return []
      | some remote => hangUpIn h depth remote.connection

/-- Closes a connection. -/
def hangUp (h : Host) (c : Connection) : StateM World (List CloseFailure) := do
  hangUpIn h (← get).depth c

end World

/-- Closes a graph. -/
def Graph.close (h : Host) (g : Graph) : StateM World (List CloseFailure) := do
  g.closeVia h (World.hangUpIn h (← get).depth)

/-- Closes a graph that others look at. Its manager no longer counts as started from then on. -/
def Graph.closeInPlace (h : Host) (g : Graph) (w : World) :
    Except RobotError Unit × Graph × World :=
  let (failures, u) := g.shutDown.close h w
  (if failures.isEmpty then .ok () else .error (.close failures), g.shutDown, u)

end RobotHost
