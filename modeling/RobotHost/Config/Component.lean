import RobotHost.Config.Check
import RobotHost.Json.Record

/-!
# Components

A component is a part of a robot with a capability of its own. Its type is read without regard to
case; a type that is not known is kept as it was given, so that it is reported when the component
is built.
-/

namespace RobotHost

inductive ComponentType where
  | arm
  | base
  | board
  | camera
  | gripper
  | lidar
  | sensor
  | provider
  | other (name : String)
deriving DecidableEq, Repr

namespace ComponentType

def text : ComponentType → String
  | arm => "arm"
  | base => "base"
  | board => "board"
  | camera => "camera"
  | gripper => "gripper"
  | lidar => "lidar"
  | sensor => "sensor"
  | provider => "provider"
  | other name => name

/-- The known type of this name in lower case. -/
def ofLowerCase? (name : String) : Option ComponentType :=
  [arm, base, board, camera, gripper, lidar, sensor, provider].find? fun t => t.text = name

/-- The type of a name in any case. Folding ASCII letters is enough: no letter outside ASCII has a
lower case that is made of letters of the known names. -/
def ofString (name : String) : ComponentType := (ofLowerCase? name.toLower).getD (other name)

def isOther : ComponentType → Bool
  | other _ => true
  | _ => false

def codec : Codec ComponentType := Codec.string.through ofString text

end ComponentType

structure Component where
  name : String
  type : ComponentType
  /-- What a sensor measures; sensors need one. -/
  subtype : String := ""
  /-- The driver that runs the component. -/
  model : String := ""
  /-- The components that have to be built first. -/
  dependsOn : List String := []
  attributes : Attributes := .empty

namespace Component

def record : Record Component where
  name := "Component"
  blank := ⟨"", .other "", "", "", [], .empty⟩
  fields := [
    .needed "name" .string name (fun r x => { r with name := x }),
    .needed "type" ComponentType.codec type (fun r x => { r with type := x }),
    .sparse "subtype" .string String.isEmpty subtype (fun r x => { r with subtype := x }),
    .defaulted "model" .string model (fun r x => { r with model := x }),
    .sparse "depends_on" Codec.string.list List.isEmpty dependsOn
      (fun r x => { r with dependsOn := x }),
    .sparse "attributes" .attributes NameMap.isEmpty attributes
      (fun r x => { r with attributes := x })]

def codec : Codec Component := record.codec

/-- A component needs a name. -/
def validate (path : String) (c : Component) : Except ConfigError Unit :=
  checkFilled path "name" c.name

/-- The text of a string attribute. -/
def attributeText? (c : Component) (key : String) : Option String :=
  (c.attributes.get? key).bind fun a => a.json.asString?

end Component

end RobotHost
