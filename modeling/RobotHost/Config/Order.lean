import RobotHost.Config.Component

/-!
# Build order

`Component.buildOrder` lists components so that each comes after all it depends on. It walks the
components in the given order, each one's dependencies in the order of their declaration, and lists
a component when its dependencies are listed. So components that do not depend on one another keep
their order.

The walk holds the *path*: the components it has entered and not yet left, each depending on the
next. Coming back to a component of the path closes a cycle, which is reported from there on.
-/

namespace RobotHost

/-- How far a walk has come: the names it has entered, latest first, and the components it has
listed. -/
structure Walk where
  entered : List String := []
  listed : List Component := []

namespace Component

/-- The first component of this name. -/
def find? (components : List Component) (name : String) : Option Component :=
  List.find? (fun c => c.name = name) components

/-- Enters a component, lists what it depends on and then the component itself. `depth` bounds how
many components the path can hold besides; a path holds no component twice, so the number of
components is enough. -/
def visit (components : List Component) :
    (depth : Nat) → (path : List String) → (name : String) → Walk → Except ConfigError Walk
  | 0, _, _, w => .ok w
  | depth + 1, path, name, w =>
    if path.contains name then .error (.circularDependency (path.dropWhile (· ≠ name)))
    else
      match find? components name with
      | none => .ok w
      | some c =>
        if w.entered.contains name then .ok w
        else do
          let w ← c.dependsOn.foldlM
            (fun w dependency => visit components depth (path ++ [name]) dependency w)
            { w with entered := name :: w.entered }
          return { w with listed := w.listed ++ [c] }

/-- Visits all components that were not entered before. -/
def visitAll (components : List Component) : List Component → Walk → Except ConfigError Walk
  | [], w => .ok w
  | c :: rest, w =>
    if w.entered.contains c.name then visitAll components rest w
    else do
      let w ← visit components (components.length + 1) [] c.name w
      visitAll components rest w

/-- The first dependency that names no component, with the component that declares it. -/
def missingDependency? (components : List Component) : List Component → Option (String × String)
  | [] => none
  | c :: rest =>
    match c.dependsOn.find? fun d => (find? components d).isNone with
    | some d => some (c.name, d)
    | none => missingDependency? components rest

/-- The components in build order. Names must be unique, dependencies must exist, and no component
may depend on itself over others; this is checked in this order. -/
def buildOrder (components : List Component) : Except ConfigError (List Component) :=
  match firstRepeated? [] (components.map Component.name) with
  | some name => .error (.duplicateName name)
  | none =>
    match missingDependency? components components with
    | some (c, d) => .error (.missingDependency c d)
    | none => (visitAll components components {}).map Walk.listed

end Component

end RobotHost
