import RobotHost.Decimal.Text
import RobotHost.Json.Document
import RobotHost.Text.Quoted

/-!
# Faults of a document

What can be wrong with a document that should mean a value of a given type. `Fault.message` is the
one place that words them.
-/

namespace RobotHost

/-- What stands in the document. -/
inductive Found where
  | null
  | bool (b : Bool)
  | int (n : Int)
  | float (x : Float)
  | string (s : String)
  | sequence
  | map

/-- What should stand there. -/
inductive Expected where
  | string
  | boolean
  | sequence
  | map
  | unsigned (bits : Nat)
  | signed (bits : Nat)
  /-- A binary64 number. -/
  | float
  /-- A record of this name. -/
  | record (name : String)
  /-- A record of this name, given as the list of its fields. -/
  | recordOf (name : String) (size : Nat)

inductive Fault where
  | missingField (name : String)
  | duplicateField (name : String)
  | invalidType (found : Found) (expected : Expected)
  | invalidValue (found : Found) (expected : Expected)
  | invalidLength (length : Nat) (expected : Expected)

/-- Why a document could not be read: its text is malformed, or it does not say what it should. -/
inductive ReadError where
  | malformed
  | fault (f : Fault)

def Found.message : Found → String
  | .null => "null"
  | .bool b => if b then "boolean `true`" else "boolean `false`"
  | .int n => "integer `" ++ toString n ++ "`"
  | .float x => "floating point `" ++ Decimal.render x ++ "`"
  | .string s => "string " ++ Text.quoted s
  | .sequence => "sequence"
  | .map => "map"

def Expected.message : Expected → String
  | .string => "a string"
  | .boolean => "a boolean"
  | .sequence => "a sequence"
  | .map => "a map"
  | .unsigned bits => "u" ++ toString bits
  | .signed bits => "i" ++ toString bits
  | .float => "f64"
  | .record name => "struct " ++ name
  | .recordOf name size =>
    "struct " ++ name ++ " with " ++ toString size ++ if size = 1 then " element" else " elements"

def Fault.message : Fault → String
  | .missingField name => "missing field `" ++ name ++ "`"
  | .duplicateField name => "duplicate field `" ++ name ++ "`"
  | .invalidType found expected =>
    "invalid type: " ++ found.message ++ ", expected " ++ expected.message
  | .invalidValue found expected =>
    "invalid value: " ++ found.message ++ ", expected " ++ expected.message
  | .invalidLength length expected =>
    "invalid length " ++ toString length ++ ", expected " ++ expected.message

namespace Document

/-- What stands at the root of a document; nothing can be said of a malformed or unfit one. -/
def found? : Document → Option Found
  | null => some .null
  | bool b => some (.bool b)
  | int n => some (.int n)
  | float x => some (.float x)
  | string s => some (.string s)
  | array _ _ => some .sequence
  | object _ _ => some .map
  | unfit | broken => none

/-- The error of a document that is not of the expected type. -/
def mismatch (d : Document) (expected : Expected) : ReadError :=
  match d.found? with
  | some found => .fault (.invalidType found expected)
  | none => .malformed

end Document

end RobotHost
