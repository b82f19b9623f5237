import RobotHost.Config.BoardDiff
import RobotHost.Config.Order
import RobotHost.Config.Section

/-!
# Configurations

A `Config` declares one robot. `Config.ensure` checks it section by section, reports the first
defect with the path of the offending element, and puts the components in build order.

A `Diff` says how one configuration came out of another: what was added, modified and removed.
Boards are modified pin by pin.
-/

namespace RobotHost

structure Config where
  cloud : Option CloudConfig := none
  remotes : List RemoteConfig := []
  boards : List BoardConfig := []
  components : List Component := []
  processes : List ProcessConfig := []
  functions : List FunctionConfig := []

/-- The parts of a configuration that stay under their names but change. -/
structure ModifiedConfig where
  remotes : List RemoteConfig := []
  boards : NameMap BoardConfigDiff := .empty
  components : List Component := []
  processes : List ProcessConfig := []
  functions : List FunctionConfig := []

structure Diff where
  added : Config := {}
  modified : ModifiedConfig := {}
  removed : Config := {}

/-! ## Written form -/

namespace Config

def record : Record Config where
  name := "Config"
  blank := {}
  fields := [
    .sparse "cloud" CloudConfig.codec.option Option.isNone cloud
      (fun r x => { r with cloud := x }),
    .sparse "remotes" RemoteConfig.codec.list List.isEmpty remotes
      (fun r x => { r with remotes := x }),
    .sparse "boards" BoardConfig.codec.list List.isEmpty boards
      (fun r x => { r with boards := x }),
    .sparse "components" Component.codec.list List.isEmpty components
      (fun r x => { r with components := x }),
    .sparse "processes" ProcessConfig.codec.list List.isEmpty processes
      (fun r x => { r with processes := x }),
    .sparse "functions" FunctionConfig.codec.list List.isEmpty functions
      (fun r x => { r with functions := x })]

def codec : Codec Config := record.codec

end Config

namespace ModifiedConfig

def record : Record ModifiedConfig where
  name := "ModifiedConfigDiff"
  blank := {}
  fields := [
    .defaulted "remotes" RemoteConfig.codec.list remotes (fun r x => { r with remotes := x }),
    .defaulted "boards" BoardConfigDiff.codec.table boards (fun r x => { r with boards := x }),
    .defaulted "components" Component.codec.list components
      (fun r x => { r with components := x }),
    .defaulted "processes" ProcessConfig.codec.list processes
      (fun r x => { r with processes := x }),
    .defaulted "functions" FunctionConfig.codec.list functions
      (fun r x => { r with functions := x })]

def codec : Codec ModifiedConfig := record.codec

end ModifiedConfig

namespace Diff

def record : Record Diff where
  name := "Diff"
  blank := {}
  fields := [
    .defaulted "added" Config.codec added (fun r x => { r with added := x }),
    .defaulted "modified" ModifiedConfig.codec modified (fun r x => { r with modified := x }),
    .defaulted "removed" Config.codec removed (fun r x => { r with removed := x })]

def codec : Codec Diff := record.codec

end Diff

/-! ## Emptiness -/

/-- Whether a configuration declares nothing. -/
def Config.isEmpty (c : Config) : Bool :=
  c.cloud.isNone && c.remotes.isEmpty && c.boards.isEmpty && c.components.isEmpty
    && c.processes.isEmpty && c.functions.isEmpty

def ModifiedConfig.isEmpty (m : ModifiedConfig) : Bool :=
  m.remotes.isEmpty && m.boards.isEmpty && m.components.isEmpty && m.processes.isEmpty
    && m.functions.isEmpty

/-- Whether nothing was added, modified or removed. -/
def Diff.isEmpty (d : Diff) : Bool :=
  d.added.isEmpty && d.modified.isEmpty && d.removed.isEmpty

/-! ## Validity -/

namespace Config

/-- The first component of this name. -/
def findComponent? (c : Config) (name : String) : Option Component :=
  Component.find? c.components name

/-- Checks the cloud and gives it its refresh interval. -/
def ensureCloud (fromCloud : Bool) (c : Config) : Except ConfigError Config :=
  match c.cloud with
  | none => .ok c
  | some cloud =>
    match cloud.validate "cloud" fromCloud with
    | .error e => .error e
    | .ok () => .ok { c with cloud := some cloud.withInterval }

/-- Checks the sections that come before the build order. -/
def validateParts (c : Config) : Except ConfigError Unit := do
  checkEach "remotes" RemoteConfig.validate 0 c.remotes
  checkEach "boards" BoardConfig.validate 0 c.boards
  checkEach "components" Component.validate 0 c.components

/-- Puts the components in build order. -/
def ensureOrder (c : Config) : Except ConfigError Config :=
  (Component.buildOrder c.components).map fun components => { c with components }

/-- Checks the sections that come after the build order. -/
def validateRest (c : Config) : Except ConfigError Unit := do
  checkEach "processes" ProcessConfig.validate 0 c.processes
  checkEach "functions" FunctionConfig.validate 0 c.functions

/-- Checks a configuration: the cloud, remotes, boards, components, the build order, processes and
functions. The configuration that comes back has what was done to it before the first defect. -/
def ensure (fromCloud : Bool) (c : Config) : Except ConfigError Unit × Config :=
  match c.ensureCloud fromCloud with
  | .error e => (.error e, c)
  | .ok c =>
    match c.validateParts with
    | .error e => (.error e, c)
    | .ok () =>
      match c.ensureOrder with
      | .error e => (.error e, c)
      | .ok c => (c.validateRest, c)

end Config

end RobotHost
