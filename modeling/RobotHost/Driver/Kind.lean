import RobotHost.Config.Component
import RobotHost.World.Table

/-!
# Kinds of parts

Drivers come in eight kinds. Most are reached through a plain handle; boards have handles to their
pins besides, and a sensor's handle says what the sensor can do. Together with remote robots they
are the kinds of parts that a robot finds by name.
-/

namespace RobotHost

/-- The kinds of drivers that need no more than a plain handle. -/
inductive PartKind where
  | arm
  | base
  | gripper
  | camera
  | lidar
  | provider
deriving DecidableEq, Repr

/-- The kinds of drivers. -/
inductive DriverKind where
  | board
  | sensor
  | part (kind : PartKind)
deriving DecidableEq, Repr

/-- The kinds of parts that are found by name. -/
inductive Kind where
  | remote
  | driver (kind : DriverKind)
deriving DecidableEq, Repr

/-- What a sensor can do. Every relative compass is a compass, and every compass a sensor. -/
inductive Capability where
  | sensor
  | compass
  | relativeCompass
deriving DecidableEq, Repr

def PartKind.text : PartKind → String
  | .arm => "arm"
  | .base => "base"
  | .gripper => "gripper"
  | .camera => "camera"
  | .lidar => "lidar"
  | .provider => "provider"

def DriverKind.text : DriverKind → String
  | .board => "board"
  | .sensor => "sensor"
  | .part kind => kind.text

def Kind.text : Kind → String
  | .remote => "remote"
  | .driver kind => kind.text

/-- The listing of a kind. -/
def Kind.plural (k : Kind) : String := k.text ++ "s"

def Capability.text : Capability → String
  | .sensor => "sensor"
  | .compass => "compass"
  | .relativeCompass => "relative compass"

/-! ## Handles -/

/-- A handle to a sensor, with what the sensor could do when it was registered. -/
structure SensorHandle where
  capability : Capability
  proxy : Ref .proxy
deriving DecidableEq, Repr

/-- What stands for a driver in a robot. -/
@[reducible]
def DriverKind.Handle : DriverKind → Type
  | .board => Ref .boardProxy
  | .sensor => SensorHandle
  | .part _ => Ref .proxy

/-- What stands for a part in a robot. -/
@[reducible]
def Kind.Handle : Kind → Type
  | .remote => Ref .remote
  | .driver kind => kind.Handle

instance (k : DriverKind) : DecidableEq k.Handle :=
  match k with
  | .board => inferInstanceAs (DecidableEq (Ref .boardProxy))
  | .sensor => inferInstanceAs (DecidableEq SensorHandle)
  | .part _ => inferInstanceAs (DecidableEq (Ref .proxy))

instance (k : Kind) : DecidableEq k.Handle :=
  match k with
  | .remote => inferInstanceAs (DecidableEq (Ref .remote))
  | .driver k => inferInstanceAs (DecidableEq k.Handle)

/-! ## Orders of the kinds -/

namespace Kind

/-- The order in which a robot's parts are listed. -/
def listed : List Kind := [
  .remote, .driver .board, .driver (.part .arm), .driver (.part .base), .driver (.part .gripper),
  .driver (.part .camera), .driver (.part .lidar), .driver .sensor, .driver (.part .provider)]

/-- The order in which a robot's parts are closed. -/
def closing : List Kind := [
  .remote, .driver (.part .arm), .driver (.part .gripper), .driver (.part .camera),
  .driver (.part .lidar), .driver (.part .base), .driver .board, .driver .sensor,
  .driver (.part .provider)]

theorem mem_listed (k : Kind) : k ∈ listed := by
  match k with
  | .remote | .driver .board | .driver .sensor => decide
  | .driver (.part p) => cases p <;> decide

theorem mem_closing (k : Kind) : k ∈ closing := by
  match k with
  | .remote | .driver .board | .driver .sensor => decide
  | .driver (.part p) => cases p <;> decide

end Kind

end RobotHost
