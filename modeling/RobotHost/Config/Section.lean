import RobotHost.Config.Board

/-!
# The other sections of a configuration

The cloud a robot reports to, the remote robots it takes parts from, the processes that run beside
it and the functions it can evaluate.
-/

namespace RobotHost

structure CloudConfig where
  id : String
  secret : String := ""
  selfAddress : String := ""
  signalingAddress : String := ""
  path : String := ""
  logPath : String := ""
  /-- How often the configuration is fetched again; zero for the default. -/
  refreshIntervalSecs : UInt64 := 0
deriving DecidableEq, Repr

/-- A remote robot whose parts are served here too. -/
structure RemoteConfig where
  name : String
  address : String
  /-- Whether the names of its parts are qualified by its own. -/
  qualified : Bool := false
  parent : String := ""
deriving DecidableEq, Repr

/-- A process that runs beside the robot. -/
structure ProcessConfig where
  id : String
  /-- The executable. -/
  name : String
  args : List String := []
  cwd : String := ""
  /-- Whether it is run to its end when it is started, or kept running. -/
  oneShot : Bool := false
  /-- Whether its output is logged. -/
  log : Bool := false
deriving DecidableEq, Repr

/-- A function for a scripting engine. -/
structure FunctionConfig where
  name : String
  engine : String
  source : String
deriving DecidableEq, Repr

/-! ## Written form -/

namespace CloudConfig

def record : Record CloudConfig where
  name := "CloudConfig"
  blank := { id := "" }
  fields := [
    .needed "id" .string id (fun r x => { r with id := x }),
    .defaulted "secret" .string secret (fun r x => { r with secret := x }),
    .defaulted "self" .string selfAddress (fun r x => { r with selfAddress := x }),
    .defaulted "signaling_address" .string signalingAddress
      (fun r x => { r with signalingAddress := x }),
    .sparse "path" .string String.isEmpty path (fun r x => { r with path := x }),
    .sparse "log_path" .string String.isEmpty logPath (fun r x => { r with logPath := x }),
    .defaulted "refresh_interval_secs" .uint64 refreshIntervalSecs
      (fun r x => { r with refreshIntervalSecs := x })]

def codec : Codec CloudConfig := record.codec

end CloudConfig

namespace RemoteConfig

def record : Record RemoteConfig where
  name := "RemoteConfig"
  blank := { name := "", address := "" }
  fields := [
    .needed "name" .string name (fun r x => { r with name := x }),
    .needed "address" .string address (fun r x => { r with address := x }),
    .defaulted "prefix" .bool qualified (fun r x => { r with qualified := x }),
    .sparse "parent" .string String.isEmpty parent (fun r x => { r with parent := x })]

def codec : Codec RemoteConfig := record.codec

end RemoteConfig

namespace ProcessConfig

def record : Record ProcessConfig where
  name := "ProcessConfig"
  blank := { id := "", name := "" }
  fields := [
    .needed "id" .string id (fun r x => { r with id := x }),
    .needed "name" .string name (fun r x => { r with name := x }),
    .sparse "args" Codec.string.list List.isEmpty args (fun r x => { r with args := x }),
    .sparse "cwd" .string String.isEmpty cwd (fun r x => { r with cwd := x }),
    .defaulted "one_shot" .bool oneShot (fun r x => { r with oneShot := x }),
    .defaulted "log" .bool log (fun r x => { r with log := x })]

def codec : Codec ProcessConfig := record.codec

end ProcessConfig

namespace FunctionConfig

def record : Record FunctionConfig where
  name := "FunctionConfig"
  blank := { name := "", engine := "", source := "" }
  fields := [
    .needed "name" .string name (fun r x => { r with name := x }),
    .needed "engine" .string engine (fun r x => { r with engine := x }),
    .needed "source" .string source (fun r x => { r with source := x })]

def codec : Codec FunctionConfig := record.codec

end FunctionConfig

/-! ## Validity -/

/-- The refresh interval of a cloud that names none, in seconds. -/
def defaultRefreshIntervalSecs : UInt64 := 10

/-- A cloud needs an id, and its own address where the configuration came from there, else a
secret. -/
def CloudConfig.validate (path : String) (fromCloud : Bool) (c : CloudConfig) :
    Except ConfigError Unit := do
  checkFilled path "id" c.id
  if fromCloud then checkFilled path "self" c.selfAddress
  else checkFilled path "secret" c.secret

/-- The cloud with the default interval in place of zero. -/
def CloudConfig.withInterval (c : CloudConfig) : CloudConfig :=
  if c.refreshIntervalSecs = 0 then { c with refreshIntervalSecs := defaultRefreshIntervalSecs }
  else c

def RemoteConfig.validate (path : String) (r : RemoteConfig) : Except ConfigError Unit := do
  checkFilled path "name" r.name
  checkFilled path "address" r.address

def ProcessConfig.validate (path : String) (p : ProcessConfig) : Except ConfigError Unit := do
  checkFilled path "id" p.id
  checkFilled path "name" p.name

def FunctionConfig.validate (path : String) (f : FunctionConfig) : Except ConfigError Unit := do
  checkFilled path "name" f.name
  checkFilled path "engine" f.engine
  checkFilled path "source" f.source

end RobotHost
