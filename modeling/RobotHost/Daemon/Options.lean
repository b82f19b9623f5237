/-!
# Options

What is asked of the daemon on the command line. A setting has a value, in the argument behind it or
attached to it; a switch has none. An argument that begins with a dash is never the value of the
setting before it, unless it is only that dash.
-/

namespace RobotHost.Daemon

inductive Setting where
  | config
  | logLevel
deriving DecidableEq, Repr

def Setting.title : Setting → String
  | config => "--config <CONFIG>"
  | logLevel => "--log-level <LOG_LEVEL>"

inductive Switch where
  | check
  | help
  | version
deriving DecidableEq, Repr

def Switch.title : Switch → String
  | check => "--check"
  | help => "--help"
  | version => "--version"

/-- What is asked for. -/
structure Options where
  config : Option String := none
  logLevel : Option String := none
  check : Bool := false
deriving DecidableEq, Repr

/-- Why there are no options. -/
inductive Refusal where
  | missingValue (s : Setting)
  | repeated (title : String)
  | unexpected (arg : String)
  /-- A value attached to a switch. -/
  | excess (value : String) (s : Switch)
  /-- Only a text about the daemon is asked for. -/
  | asked (s : Switch)
deriving DecidableEq, Repr

def Refusal.message : Refusal → String
  | missingValue s => "a value is required for '" ++ s.title ++ "' but none was supplied"
  | repeated title => "the argument '" ++ title ++ "' cannot be used multiple times"
  | unexpected arg => "unexpected argument '" ++ arg ++ "' found"
  | excess value s =>
    "unexpected value '" ++ value ++ "' for '" ++ s.title ++ "' found; no more were expected"
  | asked s => s.title

/-! ## Arguments -/

inductive Argument where
  | setting (s : Setting) (attached : Option String)
  | switch (s : Switch) (attached : Option String)
  | unknown (name : String)
  /-- The end of the options. -/
  | border
  | value (text : String)
deriving DecidableEq, Repr

/-- What is attached behind an equals sign. -/
def attached? : List Char → Option String
  | '=' :: value => some (String.ofList value)
  | _ => none

/-- An argument with two dashes. -/
def longArgument (cs : List Char) : Argument :=
  let name := String.ofList (cs.takeWhile (· ≠ '='))
  let attached := attached? (cs.dropWhile (· ≠ '='))
  match name with
  | "config" => .setting .config attached
  | "log-level" => .setting .logLevel attached
  | "check" => .switch .check attached
  | "help" => .switch .help attached
  | "version" => .switch .version attached
  | _ => .unknown ("--" ++ name)

/-- What is attached to a letter. -/
def attachedToLetter? (cs : List Char) : Option String :=
  if cs.isEmpty then none else some ((attached? cs).getD (String.ofList cs))

/-- What an argument says. -/
def Argument.ofString (s : String) : Argument :=
  match s.toList with
  | ['-', '-'] => border
  | '-' :: '-' :: cs => longArgument cs
  | '-' :: 'c' :: cs => setting .config (attachedToLetter? cs)
  | '-' :: 'l' :: cs => setting .logLevel (attachedToLetter? cs)
  | '-' :: 'h' :: _ => switch .help none
  | '-' :: 'V' :: _ => switch .version none
  | '-' :: c :: _ => unknown (String.ofList ['-', c])
  | _ => value s

/-! ## Reading -/

namespace Options

/-- Sets what a setting says. A configuration must have a name. -/
def put (o : Options) (s : Setting) (value : String) : Except Refusal Options :=
  match s with
  | .config =>
    if value.isEmpty then .error (.missingValue s)
    else if o.config.isSome then .error (.repeated s.title)
    else .ok { o with config := some value }
  | .logLevel =>
    if o.logLevel.isSome then .error (.repeated s.title)
    else .ok { o with logLevel := some value }

/-- Ends the setting that was begun, with the value that it has by then. -/
def close (o : Options) : (begun : Option (Setting × Option String)) → Except Refusal Options
  | none => .ok o
  | some (s, none) => .error (.missingValue s)
  | some (s, some value) => o.put s value

/-- Turns a switch on. -/
def turnOn (o : Options) (s : Switch) : Except Refusal Options :=
  match s with
  | .check => if o.check then .error (.repeated s.title) else .ok { o with check := true }
  | .help | .version => .error (.asked s)

/-- Reads arguments behind a setting that was begun. -/
def readFrom (o : Options) (begun : Option (Setting × Option String)) :
    List String → Except Refusal Options
  | [] => o.close begun
  | arg :: rest =>
    match Argument.ofString arg, begun with
    | .setting s attached, _ => do readFrom (← o.close begun) (some (s, attached)) rest
    | .switch s (some value), _ => .error (.excess value s)
    | .switch s none, _ => do readFrom (← (← o.close begun).turnOn s) none rest
    | .unknown name, _ => .error (.unexpected name)
    | .border, _ =>
      match rest with
      | [] => o.close begun
      | arg :: _ => .error (.unexpected arg)
    | .value text, some (s, none) => o.readFrom (some (s, some text)) rest
    | .value text, _ => .error (.unexpected text)

/-- Reads the arguments of the command line. -/
def read (args : List String) : Except Refusal Options := readFrom {} none args

/-- The file that holds the configuration. -/
def path (o : Options) : String := o.config.getD "robot.toml"

/-- The levels at which the parts of a robot are not reported. -/
def quietLevels : List String := ["warn", "error"]

/-- Whether the parts of the robot are reported. -/
def reports (o : Options) : Bool := (o.logLevel.getD "info").toLower ∉ quietLevels

end Options

end RobotHost.Daemon
