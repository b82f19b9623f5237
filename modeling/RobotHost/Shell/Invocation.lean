import RobotHost.Shell.Expand
import RobotHost.Shell.Own.Basic

/-!
# Invocations

What a simple command is: the fields of its words, and what the first of them stands for. Names of
functions come before the commands of the shell, and these before programs. The command `command`
passes over functions.
-/

namespace RobotHost.Shell

/-- What the name of a command stands for. -/
inductive Meaning where
  /-- There is no name. -/
  | nothing
  | function (body : Command)
  | own
  | program

structure Invocation where
  /-- The name and the arguments. -/
  fields : List String := []
  /-- The words that were not expanded. -/
  words : List Word := []
  meaning : Meaning := .nothing
  /-- Whether functions are looked for. -/
  functions : Bool := true
  /-- The directories in which a program is looked for, if they are not those of the shell. -/
  path : Option String := none
  /-- Whether the first command of the shell on the way is a special one, if there is one. -/
  special : Option Bool := none

/-- The fields of the first words that stand for any, and the other words. -/
def firstFields (output : Output) (fuel : Nat) : List Word → Run (List String × List Word)
  | [] => return ([], [])
  | w :: rest => do
    match ← fieldsOf output fuel w with
    | [] => firstFields output fuel rest
    | fields => return (fields, rest)

namespace Invocation

/-- Whether there is another field; words are expanded to find one. -/
def more (output : Output) (fuel : Nat) (fields : List String) (words : List Word) :
    Run (List String × List Word) :=
  if fields.isEmpty then firstFields output fuel words else return (fields, words)

/-- Passes over `command` and its options to the command behind them. If there is none or an option
asks for something else, `command` stands for itself; then there is no answer, but the fields that
were found. -/
def behind (output : Output) (fuel : Nat) : (limit : Nat) → (taken : List String) →
    Invocation → Run (Invocation × Bool)
  | 0, _, i => return (i, false)
  | limit + 1, taken, i => do
    let (fields, words) ← more output fuel i.fields i.words
    let stays (taken fields : List String) (words : List Word) : Invocation × Bool :=
      ({ i with fields := taken ++ fields, words }, false)
    match fields with
    | [] => return stays taken [] words
    | field :: rest =>
      match field.toList with
      | ['-', '-'] =>
        match ← more output fuel rest words with
        | ([], words) => return stays (taken ++ [field]) [] words
        | (fields, words) => return ({ i with fields, words, functions := false }, true)
      | '-' :: c :: cs =>
        if (c :: cs).all (· = 'p') then
          behind output fuel limit (taken ++ [field])
            { i with fields := rest, words, path := some usualPath }
        else return stays taken fields words
      | _ => return ({ i with fields, words, functions := false }, true)

/-- Finds what the first field stands for. -/
def resolve (output : Output) (fuel : Nat) : (limit : Nat) → Invocation → Run Invocation
  | 0, i => return i
  | limit + 1, i => do
    let name :: args := i.fields | return i
    let s ← get
    match if i.functions then s.functions.get? name else none with
    | some body => return { i with meaning := .function body }
    | none =>
      if !isOwn name then return { i with meaning := .program }
      let special := some (i.special.getD (specialCommands.contains name))
      let i := { i with meaning := .own, special }
      if name ≠ "command" then return i
      match ← behind output fuel fuel [name] { i with fields := args } with
      | (i, true) => resolve output fuel limit i
      | (i, false) => return i

/-- The commands whose arguments are assignments if they look like some. -/
def assigning : List String := ["alias", "export", "local", "readonly"]

/-- The fields of the words that were left. -/
def restFields (output : Output) (fuel : Nat) (assigns : Bool) : List Word → Run (List String)
  | [] => return []
  | w :: rest => do
    let first ←
      match if assigns then w.assignment? else none with
      | some (name, value) => pure [name ++ "=" ++ (← assignedText output fuel value)]
      | none => fieldsOf output fuel w
    return first ++ (← restFields output fuel assigns rest)

/-- What words ask for. -/
def ofWords (output : Output) (fuel : Nat) (words : List Word) : Run Invocation := do
  let (fields, words) ← firstFields output fuel words
  let i ← resolve output fuel fuel { fields, words }
  let assigns :=
    match i.meaning with
    | .own => (i.fields.head?.map assigning.contains).getD false
    | _ => false
  let rest ← restFields output fuel assigns i.words
  return { i with fields := i.fields ++ rest, words := [] }

/-- Whether the command of the shell `exec` is asked for. -/
def isExec (i : Invocation) : Bool :=
  match i.meaning with
  | .own => i.fields.head? = some "exec"
  | _ => false

/-- Whether what is shadowed comes back after the command. -/
def shadows (i : Invocation) : Bool :=
  match i.meaning with
  | .nothing => false
  | _ => i.special ≠ some true

end Invocation

end RobotHost.Shell
