import RobotHost.World.Environment

/-!
# Simulated drivers

Drivers without equipment, so that a robot can run on any machine. They are made for components and
boards that name no model or the model `fake`. The attribute `fail_close` makes one report a fault
when it is closed.
-/

namespace RobotHost.Simulated

def modelName : String := "fake"

/-- What a driver reports that does not close well. -/
def closeFault (name : String) : String := "fake " ++ quoted name ++ " failed to close"

/-- What a driver with these attributes reports when it is closed. -/
def closeFault? (name : String) (attributes : Attributes) : Option String :=
  match (attributes.get? "fail_close").bind fun a => a.json.asBool? with
  | some true => some (closeFault name)
  | _ => none

def defaultWidthMm : Int64 := 600

/-- The width that the attributes of a base name. -/
def widthMm (attributes : Attributes) : Int64 :=
  match (attributes.get? "width_mm").bind fun a => a.json.asInt64? with
  | some n => Int64.ofInt n
  | none => defaultWidthMm

/-- A board with all readers and counters at zero. -/
def board (c : BoardConfig) : Board where
  analogs := .ofList (c.analogs.map fun a => (a.name, 0))
  interrupts := .ofList (c.interrupts.map fun i => (i.name, 0))

/-- The device of a sensor component. -/
def sensor (c : Component) : Device :=
  match c.subtype with
  | "compass" => .compass {}
  | "relative_compass" => .relativeCompass {}
  | _ => .sensor

/-- The device of a component with a plain handle. -/
def part (c : Component) : PartKind → Device
  | .arm => .arm {}
  | .base => .base { widthMm := widthMm c.attributes }
  | .gripper => .gripper {}
  | .camera => .camera {}
  | .lidar => .lidar {}
  | .provider => .provider

/-- The driver for an order, whatever model it names. -/
def driver : Blueprint → Driver
  | .board c =>
    { name := c.name, device := .board (board c), closeFault := closeFault? c.name c.attributes }
  | .sensor c =>
    { name := c.name, device := sensor c, closeFault := closeFault? c.name c.attributes }
  | .part kind c =>
    { name := c.name, device := part c kind, closeFault := closeFault? c.name c.attributes }

/-- The model that an order names. -/
def model : Blueprint → String
  | .board c => c.model
  | .sensor c | .part _ c => c.model

/-- Whether drivers of a model are made here. -/
def knowsModel (model : String) : Bool := model.isEmpty || model = modelName

/-- Makes a simulated driver. -/
def make (b : Blueprint) : Except String Made :=
  if knowsModel (model b) then .ok (.fresh (driver b))
  else
    .error ("unknown " ++ b.kind.text ++ " model " ++ quoted (model b) ++ " for " ++ quoted b.name)

/-- A simulated driver is made anew each time. -/
theorem make_ne_existing (b : Blueprint) (d : Ref .driver) : make b ≠ .ok (.existing d) := by
  unfold make
  split <;> simp

/-- Reaches the robots at known addresses. -/
def connect (robots : NameMap Connection) (address : String) : Except String Connection :=
  match robots.get? address with
  | some c => .ok c
  | none => .error ("no robot reachable at " ++ address)

/-- An environment with simulated drivers and these robots in reach. -/
def environment (host : Host) (robots : NameMap Connection) : Environment where
  factory _ b := make b
  connector _ address := connect robots address
  host := host

end RobotHost.Simulated
