import RobotHost.Config.Component

/-!
# Boards

A board has analog readers and digital interrupts on its pins. Their names are unique over both
kinds together.
-/

namespace RobotHost

/-- An analog reader on a pin. -/
structure AnalogConfig where
  name : String
  pin : String
  /-- The window of averaging; zero for none. -/
  averageOverMs : UInt32 := 0
deriving DecidableEq, Repr

/-- A digital interrupt on a pin. -/
structure InterruptConfig where
  name : String
  pin : String
  /-- How the interrupt counts. -/
  flavor : String := ""
deriving DecidableEq, Repr

structure BoardConfig where
  name : String
  model : String := ""
  analogs : List AnalogConfig := []
  interrupts : List InterruptConfig := []
  attributes : Attributes := .empty

instance : Inhabited BoardConfig := ⟨{ name := "" }⟩

/-! ## Written form -/

namespace AnalogConfig

def record : Record AnalogConfig where
  name := "AnalogConfig"
  blank := ⟨"", "", 0⟩
  fields := [
    .needed "name" .string name (fun r x => { r with name := x }),
    .needed "pin" .string pin (fun r x => { r with pin := x }),
    .defaulted "average_over_ms" .uint32 averageOverMs (fun r x => { r with averageOverMs := x })]

def codec : Codec AnalogConfig := record.codec

end AnalogConfig

namespace InterruptConfig

def record : Record InterruptConfig where
  name := "DigitalInterruptConfig"
  blank := ⟨"", "", ""⟩
  fields := [
    .needed "name" .string name (fun r x => { r with name := x }),
    .needed "pin" .string pin (fun r x => { r with pin := x }),
    .defaulted "type" .string flavor (fun r x => { r with flavor := x })]

def codec : Codec InterruptConfig := record.codec

end InterruptConfig

namespace BoardConfig

def record : Record BoardConfig where
  name := "BoardConfig"
  blank := ⟨"", "", [], [], .empty⟩
  fields := [
    .needed "name" .string name (fun r x => { r with name := x }),
    .defaulted "model" .string model (fun r x => { r with model := x }),
    .sparse "analogs" AnalogConfig.codec.list List.isEmpty analogs
      (fun r x => { r with analogs := x }),
    .sparse "digital_interrupts" InterruptConfig.codec.list List.isEmpty interrupts
      (fun r x => { r with interrupts := x }),
    .sparse "attributes" .attributes NameMap.isEmpty attributes
      (fun r x => { r with attributes := x })]

def codec : Codec BoardConfig := record.codec

/-! ## Validity -/

/-- The names of the analog readers, then those of the interrupts. -/
def pinNames (b : BoardConfig) : List String :=
  b.analogs.map AnalogConfig.name ++ b.interrupts.map InterruptConfig.name

end BoardConfig

def AnalogConfig.validate (path : String) (a : AnalogConfig) : Except ConfigError Unit := do
  checkFilled path "name" a.name
  checkFilled path "pin" a.pin

def InterruptConfig.validate (path : String) (i : InterruptConfig) : Except ConfigError Unit := do
  checkFilled path "name" i.name
  checkFilled path "pin" i.pin

/-- A board needs a name, its readers and interrupts need name and pin, and no two of these share a
name. -/
def BoardConfig.validate (path : String) (b : BoardConfig) : Except ConfigError Unit := do
  checkFilled path "name" b.name
  checkEach (path ++ ".analogs") AnalogConfig.validate 0 b.analogs
  checkEach (path ++ ".digital_interrupts") InterruptConfig.validate 0 b.interrupts
  match firstRepeated? [] b.pinNames with
  | some name => .error (.repeatedPinName path name)
  | none => .ok ()

end RobotHost
