import RobotHost.Shell.Expand

/-!
# Where descriptors lead

A redirection becomes a `Direction` when its target was expanded. Following directions changes where
descriptors lead; the shell takes them back when the command ends.
-/

namespace RobotHost.Shell

inductive Direction where
  | file (descriptor : Nat) (kind : Redirection) (path : String)
  /-- The descriptor is led where another one leads, or closed. -/
  | same (descriptor : Nat) (other : Option Nat)
  /-- The descriptor reads what a word stands for. -/
  | here (descriptor : Nat) (text : Word)

namespace Direction

def descriptor : Direction → Nat
  | file d _ _ | same d _ | here d _ => d

end Direction

/-- The directions that redirections give. -/
def directions (output : Output) (fuel : Nat) : List Redirect → Run (List Direction)
  | [] => return []
  | .mk d kind target :: rest => do
    let first : Direction ←
      match kind with
      | .here => pure (.here d target)
      | .same =>
        let text ← wordText output fuel target
        match text.toList with
        | ['-'] => pure (.same d none)
        | [c] =>
          match digit? 10 c with
          | some other => pure (.same d (some other))
          | none => fail "Syntax error: Bad fd number"
        | _ => fail "Syntax error: Bad fd number"
      | kind => pure (.file d kind (← wordText output fuel target))
    return first :: (← directions output fuel rest)

/-- How a file is opened for a redirection that may not empty it. -/
def Redirection.opening : Redirection → Opening
  | .write | .overwrite => .write
  | .append => .append
  | .readWrite => .readWrite
  | .read | .same | .here => .read

/-- Whether a file stands at a path. -/
def holdsFile (s : Shell) (path : String) : Bool :=
  match s.system.files.find s.directory (gather path) with
  | .ok (.data _) | .ok (.program _) => true
  | _ => false

/-- What is said of a file that cannot be opened, or made if it `isNew`. -/
def cannotOpen (isNew : Bool) (path : String) (e : FileFault) : String :=
  let isAbsent := e = .missing || e = .notDirectory
  if isNew then
    "cannot create " ++ path ++ ": " ++ if isAbsent then "Directory nonexistent" else e.reason
  else "cannot open " ++ path ++ ": " ++ if isAbsent then "No such file" else e.reason

/-- Opens a file for a redirection. The answer is the number of a channel. -/
def openFor (kind : Redirection) (path : String) : Run Nat := do
  let s ← get
  let how := kind.opening
  let opened ←
    if kind = .write && s.has .noclobber && s.holdsFile path then pure (.error .alreadyThere)
    else openPath path how
  match opened with
  | .ok channel => return channel
  | .error e => fail (cannotOpen how.writes path e)

/-- Leads descriptors where directions say. -/
def follow (output : Output) (fuel : Nat) : List Direction → Run Unit
  | [] => return
  | d :: rest => do
    match d with
    | .file n kind path => direct n (some (← openFor kind path))
    | .same n none => direct n none
    | .same n (some other) =>
      if n ≠ other then
        match (← get).channel? other with
        | some channel => direct n (some channel)
        | none => fail (toString other ++ ": Bad file descriptor")
    | .here n w =>
      let text ← hereText output fuel w
      let s ← get
      let (reader, _, system) := s.system.addPipe text
      set { s with system }
      direct n (some reader)
    follow output fuel rest

/-- Follows directions. The answer says whether all could be followed. -/
def followAll (output : Output) (fuel : Nat) (ds : List Direction) : Run Bool := do
  try
    follow output fuel ds
    return true
  catch j => if j = .fault then return false else throw j

/-- The shell with descriptors that lead where they led before directions were followed. -/
def undo (before : Shell) (ds : List Direction) (s : Shell) : Shell :=
  let changed := ds.map Direction.descriptor
  { s with
    descriptors :=
      before.descriptors.filter (fun e => changed.contains e.1) ++
        s.descriptors.filter fun e => !changed.contains e.1 }

end RobotHost.Shell
