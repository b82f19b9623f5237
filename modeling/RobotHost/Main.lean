import RobotHost.Daemon.Basic
import RobotHost.Daemon.Options
import RobotHost.Simulated.Host

/-!
# The command line

`robothost [--config FILE] [--log-level LEVEL] [--check]` brings up the robot of a file, or only
checks the file.
-/

namespace RobotHost.Daemon

/-- The content of a file, if it can be read. -/
def readFile? (path : String) : IO (Option ByteArray) := do
  try
    return some (← IO.FS.readBinFile path)
  catch _ => return none

def usage : String :=
  String.intercalate "\n"
    ["Robot runtime with hot reconfiguration", "", "Usage: robothost [OPTIONS]", "", "Options:",
      "  -c, --config <CONFIG>        Path to configuration file (TOML or JSON) [default: robot.toml]",
      "  -l, --log-level <LOG_LEVEL>  Log level (trace, debug, info, warn, error) [default: info]",
      "      --check                  Validate the config, print the component build order and exit",
      "  -h, --help                   Print help", "  -V, --version                Print version"]

/-- Answers arguments that ask for nothing to be run. -/
def answer : Refusal → IO UInt32
  | .asked .version => do
    IO.println "robothost 0.1.0"
    return 0
  | .asked _ => do
    IO.println usage
    return 0
  | e => do
    IO.eprintln ("error: " ++ e.message ++ "\n\nFor more information, try '--help'.")
    return 2

/-- Does what the options ask for. -/
def carryOut (o : Options) : IO UInt32 := do
  let content ← readFile? o.path
  if o.check then
    match check o.path content with
    | .ok lines =>
      lines.forM IO.println
      return 0
    | .error e =>
      IO.eprintln ("Error: " ++ e.message)
      return 1
  match run Simulated.host o.path content with
  | .error e =>
    IO.eprintln ("Error: " ++ e.message)
    return 1
  | .ok listings =>
    if o.reports then
      for l in listings do
        IO.println (l.title ++ ": " ++ String.intercalate ", " l.names)
    while true do
      IO.sleep 1000
    return 0

end RobotHost.Daemon

open RobotHost in
def main (args : List String) : IO UInt32 :=
  match Daemon.Options.read args with
  | .error e => Daemon.answer e
  | .ok o => Daemon.carryOut o
