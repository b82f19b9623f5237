import RobotHost.Shell.Basic

/-!
# Commands about parameters

The commands of the shell that give parameters values, take them away, list them, and tell which
texts stand for names of commands.
-/

namespace RobotHost.Shell

/-- Splits `name=value`. -/
def definition (arg : String) : String × Option String :=
  let name := nameOf arg
  (name,
    if name.length < arg.length then some (String.ofList (arg.toList.drop (name.length + 1)))
    else none)

/-- Prints parameters, each behind a word. -/
def list (before : String) (wanted : Parameter → Bool) : Run Unit := do
  for (name, p) in (← get).parameters.entries.filter fun e => wanted e.2 do
    let value := (p.value.map fun v => "=" ++ inQuotes v).getD ""
    print ((if before.isEmpty then "" else before ++ " ") ++ name ++ value ++ "\n")

/-- Gives names values and changes what is known of them, or lists those that are `listed`. -/
def declare (command : String) (f : Parameter → Parameter) (listed : Parameter → Bool)
    (args : List String) : Run Nat := do
  let (options, names) ← takeLetters "p" args
  if !options.isEmpty || names.isEmpty then
    list command listed
    return 0
  for arg in names do
    match definition arg, (← get).parameters.get? (nameOf arg) with
    | (name, none), some p => setParameter name (some (f p))
    | (name, value), _ =>
      checkName name
      change name value f
  return 0

/-- The command `unset`. -/
def unset (args : List String) : Run Nat := do
  let (options, names) ← takeLetters "vf" args
  for arg in names do
    if (options.getLast?.map Prod.fst) = some 'f' then
      modify fun s => { s with functions := s.functions.erase arg }
    else forget (nameOf arg)
  return 0

/-- The command `local`. -/
def shadowAll (args : List String) : Run Nat := do
  if (← get).shadowed.isEmpty then fail "not in a function"
  args.forM (shadow false)
  return 0

/-- The command `shift`. -/
def shift (args : List String) : Run Nat := do
  let n ←
    match args with
    | [] => pure 1
    | arg :: _ => numberOf arg
  let s ← get
  if s.args.length < n then fail "can't shift that many"
  set { s with args := s.args.drop n, optionIndex := 1, optionPlace := none }
  return 0

/-! ## Texts for names of commands -/

/-- The order in which names are listed. -/
def aliasOrder (name : String) : Nat :=
  let codes := name.toList.map Char.toNat
  ((codes.head?.getD 0) * 16 + codes.foldl (· + ·) 0) % 39

/-- The command `alias`. -/
def changeAliases (args : List String) : Run Nat := do
  let s ← get
  if args.isEmpty then
    let entries := s.aliases.entries.mergeSort fun a b => aliasOrder a.1 ≤ aliasOrder b.1
    entries.forM fun (name, text) => print (name ++ "=" ++ inQuotes text ++ "\n")
    return 0
  let mut status := 0
  for arg in args do
    let first := arg.toList.take 1
    match definition (String.ofList (arg.toList.drop 1)) with
    | (name, some text) =>
      modify fun s =>
        { s with aliases := s.aliases.insert (String.ofList first ++ name) text }
    | (_, none) =>
      match (← get).aliases.get? arg with
      | some text => print (arg ++ "=" ++ inQuotes text ++ "\n")
      | none =>
        discard (write 2 ("alias: " ++ arg ++ " not found\n"))
        status := 1
  return status

/-- The command `unalias`. -/
def unalias (args : List String) : Run Nat := do
  let (options, names) ← takeLetters "a" args
  if !options.isEmpty then
    modify fun s => { s with aliases := .empty }
    return 0
  let mut status := 0
  for name in names do
    if (← get).aliases.contains name then
      modify fun s => { s with aliases := s.aliases.erase name }
    else
      discard (write 2 ("unalias: " ++ name ++ " not found\n"))
      status := 1
  return status

end RobotHost.Shell
