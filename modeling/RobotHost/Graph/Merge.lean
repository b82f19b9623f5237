import RobotHost.Config.Basic
import RobotHost.Graph.Close

/-!
# Merging graphs

A running graph is changed by three others: parts to add, parts that take the place of running
ones, and parts to remove. Additions are written over entries of the same name. Replacements keep
the handles of the running graph and exchange what stands behind them; a part that does not run is
passed over. Removals only take out names; nothing is closed by them.

A replacement is first resolved as a list of swaps, while it can still fail, and then carried out
as a whole.
-/

namespace RobotHost

namespace Graph

/-! ## Adding and removing -/

/-- Adds all of another graph. The answer is the new graph, and the processes that were replaced. -/
def mergeAdd (h : Host) (g extra : Graph) :
    EStateM ProcessError World (List (Ref .process) × Graph) := do
  let (replaced, manager) ← g.manager.addAll h extra.manager
  let merged := g.withEntries fun k => (g.entries k).override (extra.entries k)
  return (replaced,
    { merged with functions := g.functions.override extra.functions, manager := manager })

/-- Takes out all names of another graph. -/
def mergeRemove (g old : Graph) : Graph :=
  let rest := g.withEntries fun k => (g.entries k).eraseAll (old.entries k).names
  { rest with
    functions := g.functions.eraseAll old.functions.names
    manager := g.manager.removeAll old.manager }

theorem get?_mergeRemove (g old : Graph) (k : Kind) (name : String) :
    ((g.mergeRemove old).entries k).get? name =
      if name ∈ (old.entries k).names then none else (g.entries k).get? name := by
  have h : (g.mergeRemove old).entries k = (g.entries k).eraseAll (old.entries k).names :=
    Graph.entries_withEntries g (fun k => (g.entries k).eraseAll (old.entries k).names) k
  rw [h, NameMap.get?_eraseAll]

end Graph

/-! ## Swaps -/

/-- The exchange of what stands behind a handle. The new driver of a board or a plain part is fixed
when the swap is planned, that of a sensor or a remote when it is carried out. -/
inductive Swap where
  | remote (live next : Ref .remote)
  | board (name : String) (live : Ref .boardProxy) (next : Ref .driver)
  | part (live : Ref .proxy) (next : Ref .driver)
  | sensor (live next : SensorHandle)
deriving DecidableEq, Repr

namespace Swap

/-- The swap that puts what is behind one handle behind another. -/
def plan? (w : World) : (k : Kind) → String → (live next : k.Handle) → Option Swap
  | .remote, _, live, next => some (.remote live next)
  | .driver .board, name, live, next => (w.actual? (.driver .board) next).map (.board name live)
  | .driver .sensor, _, live, next => some (.sensor live next)
  | .driver (.part p), _, live, next => (w.actual? (.driver (.part p)) next).map (.part live)

/-- Carries out a swap. A board that the diff modifies is exchanged as its diff says. -/
def commit (boards : NameMap BoardConfigDiff) : Swap → StateM World (Option Resource)
  | .remote live next => do return (← World.replaceRemote live next).map .connection
  | .board name live next => do
    match boards.get? name with
    | some diff => return (← World.mergeBoard live next diff).map .driver
    | none => return (← World.replaceBoard live next).map .driver
  | .part live next => do return (← World.replaceDriver live next).map .driver
  | .sensor live next => do return (← World.replaceSensor live next).map .driver

/-- Carries out swaps in turn. The answer is what has to be closed. -/
def commitEach (boards : NameMap BoardConfigDiff) : List Swap → StateM World (List Resource)
  | [] => return []
  | s :: rest => do
    let old ← s.commit boards
    let others ← commitEach boards rest
    return old.toList ++ others

end Swap

/-- Closes what was taken from behind handles. What fails is passed over. -/
def World.retire (h : Host) : List Resource → StateM World Unit
  | [] => return ()
  | .driver d :: rest => do
    let _ ← closeDriver d
    retire h rest
  | .connection c :: rest => do
    let _ ← hangUp h c
    retire h rest

namespace Graph

/-! ## Replacing -/

/-- The first sensor that would be replaced by one of another capability. -/
def sensorMismatch? (live next : Graph) : Option RobotError :=
  next.sensors.entries.findSome? fun (name, new) => do
    let old ← live.sensors.get? name
    if old.capability = new.capability then none
    else some (.sensorKindMismatch name old.capability new.capability)

/-- The swaps of one kind, in ascending order of names. -/
def swapsOf (w : World) (live next : Graph) (k : Kind) : List Swap :=
  (next.entries k).entries.filterMap fun (name, new) => do
    let old ← (live.entries k).get? name
    Swap.plan? w k name old new

/-- The swaps that put the parts of one graph behind the handles of another. -/
def swaps (w : World) (live next : Graph) : List Swap := Kind.listed.flatMap (swapsOf w live next)

/-- Puts the parts of another graph behind the handles of this one, and closes what was there. The
answer is the new graph, and the processes that were replaced. -/
def mergeModify (h : Host) (g next : Graph) (boards : NameMap BoardConfigDiff) :
    EStateM RobotError World (List (Ref .process) × Graph) := fun w =>
  match g.sensorMismatch? next with
  | some e => .error e w
  | none =>
    let planned := g.swaps w next
    match g.manager.addAll h next.manager w with
    | .error e w => .error (.process e) w
    | .ok (replaced, manager) w =>
      let (retired, w) := Swap.commitEach boards planned w
      let ((), w) := World.retire h retired w
      .ok (replaced,
        { g with functions := g.functions.override next.functions, manager := manager }) w

/-! ## Handing processes over -/

/-- Puts processes under the management of a graph, one after the other. None may meet another of
its id; those before the first that fails stay. -/
def adopt (h : Host) (g : Graph) : List (Ref .process) → World → Except RobotError Unit × Graph × World
  | [], w => (.ok (), g, w)
  | p :: rest, w =>
    match g.manager.add h p false w with
    | .ok (_, manager) w => adopt h { g with manager := manager } rest w
    | .error (.alreadyExists id) w => (.error (.unexpectedProcessReplacement id), g, w)
    | .error e w => (.error (.process e), g, w)

end Graph

end RobotHost
