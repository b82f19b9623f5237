import RobotHost.Config.Basic
import RobotHost.Files.Basic
import RobotHost.Toml.Reader

/-!
# Loading configurations

A configuration is a file in TOML, if its name ends in `.toml` in any case, and in JSON otherwise.
-/

namespace RobotHost

/-- Why a file holds no configuration. -/
inductive LoadError where
  /-- The file cannot be read. -/
  | unreadable (e : FileFault)
  /-- The file is no UTF-8 text. -/
  | notText
  | toml
  | json (e : ReadError)

namespace LoadError

/-- The text of an error of the file; the faults inside a text are worded elsewhere. -/
def message? : LoadError → Option String
  | unreadable e => some ("IO error: " ++ e.message)
  | notText => some "IO error: stream did not contain valid UTF-8"
  | toml => none
  | json _ => none

end LoadError

/-! ## JSON texts -/

/-- Reads a value from a JSON text, which must hold nothing else. -/
def Codec.ofJsonText {α : Type} (c : Codec α) (text : String) : Except ReadError α :=
  let reading := Json.read text
  match c.decode reading.document with
  | .error e => .error e
  | .ok x => if reading.complete then .ok x else .error .malformed

/-! ## File names -/

/-- The last part of a path, between slashes. Parts that are empty or a single dot do not count. -/
def fileName (path : String) : List Char :=
  let parts := path.splitOn "/"
  match (parts.filter fun p => p ≠ "" ∧ p ≠ ".").getLast? with
  | some part => if part = ".." then [] else part.toList
  | none => []

/-- What stands after the last dot of a file name. A dot at its start does not count. -/
def extension? (name : List Char) : Option (List Char) :=
  let tail := (name.reverse.takeWhile (· ≠ '.')).reverse
  if tail.length + 1 < name.length then some tail else none

/-- Whether a file of this name is read as TOML. -/
def isTomlName (path : String) : Bool :=
  match extension? (fileName path) with
  | some ext => (String.ofList ext).toLower = "toml"
  | none => false

/-! ## Configurations -/

namespace Config

def ofJson (text : String) : Except LoadError Config :=
  match codec.ofJsonText text with
  | .ok c => .ok c
  | .error e => .error (.json e)

def ofToml (text : String) : Except LoadError Config :=
  match (Toml.read? text).map codec.decode with
  | some (.ok c) => .ok c
  | _ => .error .toml

/-- The configuration in a file of this name and content. -/
def ofFile (path : String) (content : ByteArray) : Except LoadError Config :=
  match String.fromUTF8? content with
  | none => .error .notText
  | some text => if isTomlName path then ofToml text else ofJson text

end Config

end RobotHost
