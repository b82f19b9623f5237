import RobotHost.Shell.Own.Parameter

/-!
# Options of the shell

Options are set by letters or by names, when the shell begins and by the command `set`.
-/

namespace RobotHost.Shell

/-- Turns an option on or off. -/
def turn (on : Bool) (f : Flag) : Run Unit :=
  modify fun s =>
    let others := s.flags.filter (· ≠ f)
    let others :=
      match f, on with
      | .vi, true => others.filter (· ≠ .emacs)
      | .emacs, true => others.filter (· ≠ .vi)
      | _, _ => others
    { s with flags := if on then f :: others else others }

/-- Turns the option with this letter on or off. -/
def turnLetter (on : Bool) (c : Char) : Run Unit := do
  match Flag.all.find? fun f => f.letter? = some c with
  | some f => turn on f
  | none => fail ("Illegal option -" ++ String.singleton c)

/-- Turns the option with this name on or off. -/
def turnNamed (on : Bool) (name : String) : Run Unit := do
  match Flag.all.find? fun f => f.name = name with
  | some f => turn on f
  | none => fail ("Illegal option " ++ (if on then "-" else "+") ++ "o " ++ name)

/-- A text in a column of this width. -/
def inColumn (width : Nat) (text : String) : String :=
  text ++ String.ofList (List.replicate (width - text.length) ' ')

/-- Prints all options, for a reader or as commands. -/
def listOptions (forReader : Bool) : Run Unit := do
  let s ← get
  if forReader then print "Current option settings\n"
  for f in Flag.all do
    if forReader then
      print (inColumn 16 f.name ++ (if s.has f then "on" else "off") ++ "\n")
    else print ("set " ++ (if s.has f then "-o " else "+o ") ++ f.name ++ "\n")

/-- Options that were taken from the start of arguments. -/
structure Taken where
  /-- The letters among them that are no options of a running shell. -/
  others : List Char := []
  /-- Whether two dashes marked their end. -/
  marked : Bool := false
  rest : List String

/-- Sets options by letters. The answer is the letters that are no options of a running shell. -/
def turnLetters (on : Bool) (others : List Char) : List Char → List String →
    Run (List Char × List String)
  | [], rest => return ([], rest)
  | c :: cs, rest => do
    if others.contains c then
      let (more, rest) ← turnLetters on others cs rest
      return (c :: more, rest)
    else if c = 'o' then
      match rest with
      | [] =>
        listOptions on
        turnLetters on others cs []
      | name :: rest =>
        turnNamed on name
        turnLetters on others cs rest
    else
      turnLetter on c
      turnLetters on others cs rest

/-- Takes options from the start of arguments and sets them. -/
def takeOptions (others : List Char) : (fuel : Nat) → List String → Run Taken
  | 0, rest => return { rest }
  | _ + 1, [] => return { rest := [] }
  | fuel + 1, arg :: rest => do
    match arg.toList with
    | ['-', '-'] => return { marked := true, rest }
    | ['-'] =>
      if others.isEmpty then
        turn false .xtrace
        turn false .verbose
      return { rest }
    | sign :: cs =>
      if sign ≠ '-' && sign ≠ '+' then return { rest := arg :: rest }
      let (found, rest) ← turnLetters (sign = '-') others cs rest
      let taken ← takeOptions others fuel rest
      return { taken with others := found ++ taken.others }
    | [] => return { rest := arg :: rest }

/-- The command `set`. -/
def setOptions (args : List String) : Run Nat := do
  if args.isEmpty then
    list "" fun p => p.value.isSome
    return 0
  let taken ← takeOptions [] args.length args
  if taken.marked || !taken.rest.isEmpty then
    modify fun s => { s with args := taken.rest, optionIndex := 1, optionPlace := none }
  return 0

end RobotHost.Shell
