import RobotHost.Shell.Basic
import RobotHost.Shell.Field

/-!
# Commands that read

`read` reads a line and splits it into parameters; `getopts` reads options from arguments, one with
each call.
-/

namespace RobotHost.Shell

/-! ## Lines -/

/-- The atoms of a line, in which a backslash takes a character as it is; the flag says that the last
character was one that joins the line with the next. Characters that were taken are not split. -/
def lineAtoms (raw : Bool) : List Char → List Atom × Bool
  | [] => ([], false)
  | ['\n'] => ([], false)
  | '\x00' :: cs => lineAtoms raw cs
  | '\\' :: cs =>
    if raw then
      let (more, joins) := lineAtoms raw cs
      (.char '\\' false :: more, joins)
    else
      match cs with
      | [] => ([], false)
      | '\n' :: _ => ([.stop, .start false], true)
      | c :: cs =>
        let (more, joins) := lineAtoms raw cs
        (.stop :: .char c true :: .start false :: more, joins)
  | c :: cs =>
    let (more, joins) := lineAtoms raw cs
    (.char c false :: more, joins)

/-- Reads a line, which may go on over several. The answer also says whether it has an end. -/
def readAtoms (raw : Bool) : (fuel : Nat) → Run (List Atom × Bool)
  | 0 => return ([], false)
  | fuel + 1 => do
    let s ← get
    let line := ((s.channel? 0).bind s.system.lineAhead?).getD []
    advance 0 line.length
    let (atoms, joins) := lineAtoms raw line
    if joins then
      let (more, hasEnd) ← readAtoms raw fuel
      return (atoms ++ more, hasEnd)
    else return (atoms, line.getLast? = some '\n')

/-- How many lines can be joined. -/
def maxJoined : Nat := 10000

/-- Gives fields to parameters; those that are left over get nothing. -/
def assignFields : List String → List Field → Run Unit
  | [], _ => return
  | name :: names, fields => do
    assign (nameOf name) ((fields.head?.map Field.text).getD "")
    assignFields names (fields.drop 1)

/-- The command `read`. -/
def readLineInto (args : List String) : Run Nat := do
  let (options, names) ← takeLetters "p:r" args
  if names.isEmpty then fail "arg count"
  let (atoms, hasEnd) ← readAtoms (options.any fun o => o.1 = 'r') maxJoined
  let s ← get
  assignFields names (split s.separators (some names.length) (.start false :: atoms ++ [.stop]))
  return if hasEnd then 0 else 1

/-! ## Options -/

/-- What is found at the place of the next option. -/
inductive Found where
  | over
  /-- A letter, and what follows it in its argument. -/
  | letter (c : Char) (rest : List Char)

/-- Looks at the place of the next option. The answer also says which argument comes after. -/
def nextOption (args : List String) (index : Nat) (place : Option Nat) : Found × Nat :=
  let inArgument :=
    match index, place with
    | i + 2, some n => ((args[i]?).getD "").toList.drop n
    | _, _ => []
  match inArgument with
  | c :: rest => (.letter c rest, index)
  | [] =>
    match args[index - 1]?.map String.toList with
    | some ['-', '-'] => (.over, index + 1)
    | some ('-' :: c :: rest) => (.letter c rest, index + 1)
    | _ => (.over, index)

/-- Whether an option has a value, if it is among the `options`: a colon behind one says so. -/
def hasValue? (c : Char) : (options : List Char) → Option Bool
  | [] => none
  | o :: ':' :: rest => if o = c then some true else hasValue? c rest
  | o :: rest => if o = c then some false else hasValue? c rest

/-- Where the options stand after a letter was read. -/
structure OptionState where
  /-- What the parameter for the letter gets. -/
  letter : String
  /-- What `OPTARG` gets; it loses its value if there is nothing. -/
  value : Option String
  index : Nat
  /-- What is left of the argument, if it holds more letters. -/
  rest : Option (List Char)
  /-- What is said of a mistake. -/
  complaint : String := ""

/-- Reads a letter of which it is known what follows. -/
def readOption (options : String) (args : List String) (c : Char) (rest : List Char) (index : Nat) :
    OptionState :=
  let letter := String.singleton c
  let isSilent := options.startsWith ":"
  match hasValue? c options.toList with
  | none =>
    if isSilent then ⟨"?", some letter, index, some rest, ""⟩
    else ⟨"?", none, index, some rest, "Illegal option -" ++ letter ++ "\n"⟩
  | some false => ⟨letter, some "", index, some rest, ""⟩
  | some true =>
    if !rest.isEmpty then ⟨letter, some (String.ofList rest), index, none, ""⟩
    else
      match args[index - 1]? with
      | some value => ⟨letter, some value, index + 1, none, ""⟩
      | none =>
        if isSilent then ⟨":", some letter, index, none, ""⟩
        else ⟨"?", none, index, none, "No arg for -" ++ letter ++ " option\n"⟩

/-- The command `getopts`. -/
def readOptions (args : List String) : Run Nat := do
  let options :: name :: given := args | fail "Usage: getopts optstring var [arg]"
  let s ← get
  let list := if given.isEmpty then s.args else given
  let (index, place) :=
    if list.length + 1 < s.optionIndex then (1, none) else (s.optionIndex, s.optionPlace)
  let finish (index : Nat) (letter : String) (place : Option Nat) (status : Nat) : Run Nat := do
    change "OPTIND" (some (toString index)) id
    assign name letter
    modify fun s => { s with optionIndex := index, optionPlace := place }
    return status
  match nextOption list index place with
  | (.over, index) => finish index "?" none 1
  | (.letter c rest, index) =>
    let r := readOption options list c rest index
    discard (write 2 r.complaint)
    match r.value with
    | some v => assign "OPTARG" v
    | none => forget "OPTARG"
    let size := ((list[r.index - 2]?).getD "").length
    finish r.index r.letter (r.rest.map fun rest => size - rest.length) 0

end RobotHost.Shell
