import RobotHost.Graph.Merge
import RobotHost.Graph.Select

/-!
# Local robots

A `LocalRobot` is a running graph with the configuration it was built from. It is moved to another
configuration by a diff, while it runs: what the diff adds and modifies is built beside it and
merged into a draft of the new graph, and what the diff removes is selected, so that it can be
closed. Up to here everything can fail, and then all that was built is closed and the robot stays
as it was. Once the draft is complete it becomes the robot's graph, and the removed parts are
closed together with the processes that others took the place of.
-/

namespace RobotHost

structure LocalRobot where
  graph : Graph
  config : Config

/-- A new graph that is ready to be installed. -/
structure Draft where
  graph : Graph
  /-- The parts that are removed. -/
  removed : Graph
  /-- The processes that added ones took the place of. -/
  replacedByAdded : List (Ref .process)
  /-- The processes that modified ones took the place of. -/
  replacedByModified : List (Ref .process)

/-- Closes graphs in turn. What fails is passed over. -/
def World.discard (h : Host) : List Graph → StateM World Unit
  | [] => return ()
  | g :: rest => do
    let _ ← g.close h
    discard h rest

namespace LocalRobot

/-- Builds a robot. If that fails, all that was built is closed. -/
def start (env : Environment) (c : Config) : EStateM RobotError World LocalRobot := fun w =>
  match Build.config env c ⟨{}, w⟩ with
  | .ok () s => .ok ⟨s.graph, c⟩ s.world
  | .error e s =>
    let ((), w) := World.discard env.host [s.graph] s.world
    .error e w

/-- Closes all parts of a robot. -/
def close (h : Host) (r : LocalRobot) : StateM World (List CloseFailure) := r.graph.close h

/-! ## Moving to another configuration -/

/-- Merges what was built and what is removed into a draft. -/
def merge (h : Host) (r : LocalRobot) (diff : Diff) (added modified : Graph) :
    EStateM RobotError World Draft := do
  let removed ← r.graph.select h diff.removed
  let (replacedByAdded, graph) ← EStateM.adaptExcept .process (r.graph.mergeAdd h added)
  let (replacedByModified, graph) ← graph.mergeModify h modified diff.modified.boards
  return ⟨graph.mergeRemove removed, removed, replacedByAdded, replacedByModified⟩

/-- Prepares the graph that a diff leads to. If that fails, all that was built for it is closed. -/
def prepare (env : Environment) (r : LocalRobot) (diff : Diff) : EStateM RobotError World Draft :=
  fun w =>
    match Build.config env diff.added ⟨{}, w⟩ with
    | .error e added =>
      let ((), w) := World.discard env.host [added.graph] added.world
      .error e w
    | .ok () added =>
      match Build.modified env diff.modified ⟨{}, added.world⟩ with
      | .error e modified =>
        let ((), w) := World.discard env.host [added.graph, modified.graph] modified.world
        .error e w
      | .ok () modified =>
        match r.merge env.host diff added.graph modified.graph modified.world with
        | .error e w =>
          let ((), w) := World.discard env.host [added.graph, modified.graph] w
          .error e w
        | .ok draft w => .ok draft w

end LocalRobot

/-- Closes what a draft removes, with the processes that others took the place of. A process that
cannot be handed over is reported before what does not close. -/
def Draft.finish (h : Host) (d : Draft) (w : World) : Except RobotError Unit × World :=
  let (handedOver, removed, w) :=
    match d.removed.adopt h d.replacedByAdded w with
    | (.ok (), removed, w) => removed.adopt h d.replacedByModified w
    | (.error e, removed, w) => (.error e, removed, w)
  let (failures, w) := removed.close h w
  match handedOver with
  | .error e => (.error e, w)
  | .ok () => (if failures.isEmpty then .ok () else .error (.close failures), w)

namespace LocalRobot

/-- Moves a robot to a configuration, given the diff from the one it runs. An empty diff leaves its
graph alone. The answer is how it went, and the robot afterwards. -/
def reconfigure (env : Environment) (r : LocalRobot) (c : Config) (diff : Diff) (w : World) :
    Except RobotError Unit × LocalRobot × World :=
  if diff.isEmpty then (.ok (), { r with config := c }, w)
  else
    match r.prepare env diff w with
    | .error e w => (.error e, r, w)
    | .ok draft w =>
      let (outcome, w) := draft.finish env.host w
      (outcome, ⟨draft.graph, c⟩, w)

end LocalRobot

end RobotHost
