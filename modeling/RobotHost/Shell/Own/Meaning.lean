import RobotHost.Shell.Own.Job

/-!
# What names of commands mean

A name stands for a keyword, for a text, for a function, for a command of the shell or for a
program, which is looked for in the directories of `PATH`. Where a program was found is kept.
-/

namespace RobotHost.Shell

/-- The commands of the shell that are not special. -/
def ordinaryCommands : List String :=
  ["[", "alias", "bg", "cd", "chdir", "command", "echo", "false", "fg", "getopts", "hash", "jobs",
    "kill", "printf", "pwd", "read", "test", "true", "type", "ulimit", "umask", "unalias", "wait"]

/-- The directories in which programs are found if nothing else is said. -/
def usualPath : String := "/usr/local/sbin:/usr/local/bin:/usr/sbin:/usr/bin:/sbin:/bin"

/-- The paths at which a program is looked for. -/
def programPaths (s : Shell) (path : Option String) (name : String) : List String :=
  let dirs := path.getD ((s.value? "PATH").getD "")
  (dirs.splitOn ":").map fun d => if d.isEmpty then name else d ++ "/" ++ name

/-- Whether a program or at least a file is at a path. -/
def isFile (s : Shell) (path : String) : Bool :=
  match s.system.files.find s.directory (gather path) with
  | .ok (.data _) | .ok (.program _) => true
  | _ => false

/-- The path of the program that a name stands for. -/
def pathOfProgram? (s : Shell) (path : Option String) (name : String) : Option String :=
  if name.toList.contains '/' then
    if (s.system.files.find s.directory (gather name)).isOk then some name else none
  else (s.programPaths path name).find? s.isFile

/-- Remembers where a program is. -/
def remember (name : String) : Run Unit :=
  modify fun s =>
    if name.toList.contains '/' then s
    else
      match s.pathOfProgram? none name with
      | some path => { s with hashed := s.hashed.insert name path }
      | none => s

/-- Tells what a name means, in short or for a reader. The answer is an exit status. -/
def tell (brief : Bool) (path : Option String) (name : String) : Run Nat := do
  let s ← get
  let answer (long short : String) : Run Nat := do
    print ((if brief then short else name ++ " is " ++ long) ++ "\n")
    return 0
  if reserved.contains name then answer "a shell keyword" name
  else
    match s.aliases.get? name, path.isNone && s.functions.contains name with
    | some text, _ => answer ("an alias for " ++ text) ("alias " ++ name ++ "=" ++ inQuotes text)
    | none, true => answer "a shell function" name
    | none, false =>
      if specialCommands.contains name then answer "a special shell builtin" name
      else if ordinaryCommands.contains name then answer "a shell builtin" name
      else
        match (if path.isNone then s.hashed.get? name else none), s.pathOfProgram? path name with
        | some found, _ => answer ("a tracked alias for " ++ found) found
        | none, some found => answer found found
        | none, none =>
          if !brief then print (name ++ ": not found\n")
          return 127

/-- The command `type`. -/
def tellAll (names : List String) : Run Nat :=
  names.foldlM (fun status name => do return max status (← tell false none name)) 0

/-- The command `hash`. -/
def hash (args : List String) : Run Nat := do
  let (options, names) ← takeLetters "r" args
  if !options.isEmpty then
    modify fun s => { s with hashed := .empty }
    return 0
  if names.isEmpty then
    for path in (← get).hashed.values do
      print (path ++ "\n")
    return 0
  let mut status := 0
  for name in names do
    let s ← get
    if name.toList.contains '/' || s.functions.contains name || specialCommands.contains name ||
        ordinaryCommands.contains name then
      pure ()
    else if (s.pathOfProgram? none name).isSome then remember name
    else
      complain (name ++ ": not found")
      status := 1
  return status

end RobotHost.Shell
