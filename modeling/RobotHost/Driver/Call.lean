import RobotHost.Driver.Basic

/-!
# Calls

What can be asked of a driver, and what it answers. A call may change the state of the device; a
call that fails leaves it as it was.
-/

namespace RobotHost

/-- A picture in shades of gray, one byte a pixel. -/
structure Frame where
  width : Nat
  height : Nat
  mimeType : String
  data : List Nat
deriving DecidableEq, Repr

/-- One echo of a lidar. -/
structure Echo where
  angleDeg : Float
  distanceM : Float

inductive Call where
  | currentPosition
  | moveToPosition (pose : Pose)
  | jointPositions
  | moveToJointPositions (degrees : List Float)
  | moveStraight (distanceMm : Int64)
  | spin (angleDeg : Float)
  | widthMm
  | openJaws
  | grab
  | nextFrame
  | start
  /-- Ends what a base or a lidar does. -/
  | stop
  | scan
  | setPin (pin : String) (high : Bool)
  | pinState (pin : String)
  | pinNames (kind : PinKind)
  | readings
  | heading
  | startCalibration
  | stopCalibration
  | mark
  | ready

inductive Reply where
  | done
  | flag (b : Bool)
  | whole (n : Int64)
  | number (x : Float)
  | numbers (xs : List Float)
  | names (ns : List String)
  | pose (p : Pose)
  | frame (f : Frame)
  | echoes (es : List Echo)

/-- Why a call failed. -/
inductive CallError where
  | jointCount (expected got : Nat)
  | scanNotStarted (lidar : String)
  | calibrating (compass : String)
  | notACompass
  /-- The driver is of a kind that does not know the call. -/
  | unsupported
deriving DecidableEq, Repr

def CallError.message : CallError → String
  | jointCount expected got =>
    "expected " ++ toString expected ++ " joint positions, got " ++ toString got
  | scanNotStarted lidar => "lidar " ++ quoted lidar ++ " is not started"
  | calibrating compass => "compass " ++ quoted compass ++ " is calibrating"
  | notACompass => "sensor is not a compass"
  | unsupported => "unsupported call"

/-- The picture a camera takes after a number of others: every pixel holds that number's last
byte. -/
def Camera.frame (c : Camera) : Frame where
  width := 4
  height := 3
  mimeType := "image/x-raw-gray"
  data := List.replicate 12 (c.frames.toNat % 256)

/-- A full turn in eight steps, with walls one metre away. -/
def Lidar.echoes : List Echo := (List.range 8).map fun i => ⟨Float.ofNat (45 * i), 1.0⟩

/-- What a plain sensor reads. -/
def sensorReadings : List Float := [1.0, 2.0, 3.0]

/-- What a device answers, and its state afterwards. -/
def Device.answer (name : String) : Device → Call → Except CallError (Reply × Device)
  | .arm a, .currentPosition => .ok (.pose a.position, .arm a)
  | .arm a, .moveToPosition pose => .ok (.done, .arm { a with position := pose })
  | .arm a, .jointPositions => .ok (.numbers a.joints, .arm a)
  | .arm a, .moveToJointPositions degrees =>
    if degrees.length = a.joints.length then .ok (.done, .arm { a with joints := degrees })
    else .error (.jointCount a.joints.length degrees.length)
  | .base b, .moveStraight distance =>
    .ok (.whole distance, .base { b with travelledMm := b.travelledMm + distance.abs })
  | .base b, .spin angle => .ok (.number angle, .base b)
  | .base b, .stop => .ok (.done, .base b)
  | .base b, .widthMm => .ok (.whole b.widthMm, .base b)
  | .gripper _, .openJaws => .ok (.done, .gripper ⟨true⟩)
  | .gripper _, .grab => .ok (.flag false, .gripper ⟨false⟩)
  | .camera c, .nextFrame => .ok (.frame c.frame, .camera ⟨c.frames + 1⟩)
  | .lidar _, .start => .ok (.done, .lidar ⟨true⟩)
  | .lidar _, .stop => .ok (.done, .lidar ⟨false⟩)
  | .lidar l, .scan =>
    if l.running then .ok (.echoes Lidar.echoes, .lidar l) else .error (.scanNotStarted name)
  | .board b, .setPin pin high => .ok (.done, .board { b with pins := b.pins.insert pin high })
  | .board b, .pinState pin => .ok (.flag ((b.pins.get? pin).getD false), .board b)
  | .board b, .pinNames kind => .ok (.names (b.pinNames kind), .board b)
  | .sensor, .readings => .ok (.numbers sensorReadings, .sensor)
  | .compass c, .readings => .ok (.numbers [c.heading], .compass c)
  | .compass c, .heading =>
    if c.calibrating then .error (.calibrating name) else .ok (.number c.heading, .compass c)
  | .compass c, .startCalibration => .ok (.done, .compass { c with calibrating := true })
  | .compass c, .stopCalibration => .ok (.done, .compass { c with calibrating := false })
  | .relativeCompass c, .readings => .ok (.numbers [c.relativeHeading], .relativeCompass c)
  | .relativeCompass c, .heading => .ok (.number c.relativeHeading, .relativeCompass c)
  | .relativeCompass c, .startCalibration => .ok (.done, .relativeCompass c)
  | .relativeCompass c, .stopCalibration => .ok (.done, .relativeCompass c)
  | .relativeCompass c, .mark => .ok (.done, .relativeCompass { c with reference := c.heading })
  | .provider, .ready => .ok (.done, .provider)
  | _, _ => .error .unsupported

/-- What a driver answers, and the driver afterwards. -/
def Driver.answer (d : Driver) (c : Call) : Except CallError (Reply × Driver) :=
  (d.device.answer d.name c).map fun (reply, device) => (reply, { d with device })

/-- A call through the handle of a sensor; a plain sensor's handle knows of no heading, whatever
the sensor behind it could do. -/
def Driver.answerAs (d : Driver) (capability : Capability) (c : Call) :
    Except CallError (Reply × Driver) :=
  match capability, c with
  | .sensor, .heading => .error .notACompass
  | _, c => d.answer c

/-! ## Pins -/

/-- The value of an analog reader. -/
def Board.analog? (b : Board) (name : String) : Option Int32 := b.analogs.get? name

/-- The counter of a digital interrupt. -/
def Board.interrupt? (b : Board) (name : String) : Option Int64 := b.interrupts.get? name

/-- Writes the value of an analog reader that is there. -/
def Board.setAnalog? (b : Board) (name : String) (value : Int32) : Option Board :=
  (b.analogs.get? name).map fun _ => { b with analogs := b.analogs.insert name value }

/-- Counts one edge of a digital interrupt; only rising edges count. -/
def Board.tick? (b : Board) (name : String) (high : Bool) : Option Board :=
  (b.interrupts.get? name).map fun count =>
    if high then { b with interrupts := b.interrupts.insert name (count + 1) } else b

end RobotHost
