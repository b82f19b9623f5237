import RobotHost.Config.Error
import RobotHost.Decimal.Binary64
import RobotHost.Driver.Kind

/-!
# Drivers

A `Driver` stands for one piece of equipment: its name, the state of its device, and how it takes
being closed. Closing marks it as closed, whether it then reports a fault or not; a closed driver
still answers calls.
-/

namespace RobotHost

/-- A position in millimetres and an orientation in degrees. -/
structure Pose where
  x : Float := 0.0
  y : Float := 0.0
  z : Float := 0.0
  roll : Float := 0.0
  pitch : Float := 0.0
  yaw : Float := 0.0

def Pose.record : Record Pose where
  name := "Pose"
  blank := {}
  fields := [
    .needed "x" .float x (fun r v => { r with x := v }),
    .needed "y" .float y (fun r v => { r with y := v }),
    .needed "z" .float z (fun r v => { r with z := v }),
    .needed "roll" .float roll (fun r v => { r with roll := v }),
    .needed "pitch" .float pitch (fun r v => { r with pitch := v }),
    .needed "yaw" .float yaw (fun r v => { r with yaw := v })]

def Pose.codec : Codec Pose := record.codec

/-! ## Devices -/

structure Arm where
  position : Pose := {}
  /-- The angles of the joints in degrees. -/
  joints : List Float := List.replicate 6 0.0

structure Base where
  widthMm : Int64
  /-- The distance driven so far, there and back. -/
  travelledMm : Int64 := 0

structure Gripper where
  isOpen : Bool := true

structure Camera where
  /-- How many frames were taken. -/
  frames : UInt64 := 0

structure Lidar where
  running : Bool := false

structure Board where
  /-- The values of the analog readers. -/
  analogs : NameMap Int32 := .empty
  /-- The counters of the digital interrupts. -/
  interrupts : NameMap Int64 := .empty
  /-- The pins that were set. -/
  pins : NameMap Bool := .empty

structure Compass where
  heading : Float := 0.0
  calibrating : Bool := false

structure RelativeCompass where
  heading : Float := 0.0
  /-- The heading that counts as zero. -/
  reference : Float := 0.0

inductive Device where
  | arm (a : Arm)
  | base (b : Base)
  | gripper (g : Gripper)
  | camera (c : Camera)
  | lidar (l : Lidar)
  | board (b : Board)
  | sensor
  | compass (c : Compass)
  | relativeCompass (c : RelativeCompass)
  | provider

/-- The names of the readers or of the interrupts of a board, in ascending order. -/
def Board.pinNames (b : Board) : PinKind → List String
  | .analog => b.analogs.names
  | .interrupt => b.interrupts.names

/-- The heading from the reference on, in degrees from zero up to a full turn. -/
def RelativeCompass.relativeHeading (c : RelativeCompass) : Float :=
  Decimal.positiveRemainder (c.heading - c.reference) 360

/-! ## Drivers -/

structure Driver where
  name : String
  device : Device
  /-- Whether it has been closed at least once. -/
  closed : Bool := false
  /-- What it reports when it is closed, if it does not close well. -/
  closeFault : Option String := none

namespace Driver

/-- The most a sensor can do. -/
def capability (d : Driver) : Capability :=
  match d.device with
  | .relativeCompass _ => .relativeCompass
  | .compass _ => .compass
  | _ => .sensor

/-- The names of the pins of a kind; only boards have any. -/
def pinNames (d : Driver) (kind : PinKind) : List String :=
  match d.device with
  | .board b => b.pinNames kind
  | _ => []

end Driver

end RobotHost
