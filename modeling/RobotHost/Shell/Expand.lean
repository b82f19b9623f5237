import RobotHost.Shell.Arithmetic
import RobotHost.Shell.Basic
import RobotHost.Shell.Field
import RobotHost.Shell.Glob

/-!
# What words stand for

`expand` finds the atoms of a word: values of parameters, outputs of commands and sums take the place
of the pieces that stand for them. `fieldsOf` goes on to fields and to the paths that fit them. How
commands are run for their output is left open: it is the argument `output`.

Words are expanded *in full* where they may stand for several fields. Elsewhere the arguments of the
shell are joined.
-/

namespace RobotHost.Shell

/-- Runs a command, if there is one, for what it prints. -/
abbrev Output := Option Command → Run String

/-- How a word is expanded. -/
structure Expansion where
  /-- Whether it may stand for several fields. -/
  full : Bool := false
  /-- Whether its own unquoted characters are split like those of values. -/
  splits : Bool := false

/-! ## Home directories -/

/-- The file that lists the users of a host. -/
def userList : String := "/etc/passwd"

/-- The home directory of a user, or of the one whom the shell works for. -/
def homeOf (s : Shell) (user : String) : Option String :=
  if user.isEmpty then s.value? "HOME"
  else do
    let content ← (s.system.files.read [] userList).toOption
    (((ofBytes content).splitOn "\n").map (·.splitOn ":")).findSome? fun fields =>
      if fields.head? = some user then fields[5]? else none

/-- The name behind a tilde, up to a slash, and what follows. Nothing in it is quoted. -/
def userName? : Word → Option (List Char × Word)
  | [] => some ([], [])
  | .char c false :: rest =>
    if c = '/' then some ([], .char c false :: rest)
    else (userName? rest).map fun (name, rest) => (c :: name, rest)
  | _ => none

/-- Puts a home directory for a tilde at the start of a word. -/
def withHome (s : Shell) (w : Word) : Word :=
  match w with
  | .char '~' false :: rest =>
    match userName? rest with
    | some (name, rest) =>
      match s.homeOf (String.ofList name) with
      | some home => home.toList.map (.char · true) ++ rest
      | none => w
    | none => w
  | _ => w

/-- Puts home directories for tildes at the start and behind colons. -/
def withHomes (s : Shell) (w : Word) : Word :=
  let parts := w.foldr (fun p parts =>
    match p, parts with
    | .char ':' false, parts => [] :: parts
    | p, part :: parts => (p :: part) :: parts
    | p, [] => [[p]]) [[]]
  List.intercalate [.char ':' false] (parts.map s.withHome)

/-! ## Parameters -/

/-- Whether a parameter stands for all arguments. -/
def isArguments (name : String) : Bool := name = "@" || name = "*"

/-- The text of a parameter, if it has a value. A NUL is the border between two arguments that stay
apart. -/
def text? (s : Shell) (full quoted : Bool) (name : String) : Option (List Char) :=
  if isArguments name then
    let joint :=
      if full && (name = "@" || !quoted) then ['\x00']
      else ((s.value? "IFS").getD " ").toList.take 1
    some (List.intercalate joint (s.args.map String.toList))
  else (s.value? name).map String.toList

/-- The atoms of the text of a parameter. -/
def atomsOf (s : Shell) (quoted : Bool) (name : String) (text : List Char) : List Atom :=
  let chars : List Atom := text.map fun c => if c = '\x00' then .border else .char c quoted
  if !quoted then .start false :: chars ++ [.stop]
  else if name = "@" && !s.args.isEmpty then .start true :: chars ++ [.stop]
  else chars

/-- What is said of a missing value. -/
def missingText (orEmpty : Bool) : String :=
  "parameter not set" ++ if orEmpty then " or null" else ""

/-- The text of a parameter; it must have a value if the options say so. -/
def requested (full quoted : Bool) (name : String) : Run (List Char) := do
  let s ← get
  match s.text? full quoted name with
  | some text => return text
  | none =>
    if s.has .nounset then fail (name ++ ": " ++ missingText false)
    return []

/-! ## Sums -/

/-- The value of a sum. Names keep the values that they are given. -/
def sum (text : String) : Run String := do
  let s ← get
  let result := do
    let e ← Expression.ofString text
    (e.evaluate fun name => (s.value? name).getD "").run []
  match result with
  | .ok (n, given) =>
    given.reverse.forM fun g => assign g.1 (toString g.2.toInt)
    return toString n.toInt
  | .error e => fail (e.message text)

/-! ## Words -/

/-- Gives up a run that takes too long. -/
def giveUp {α : Type} : Run α := do
  modify fun s => { s with status := 2 }
  throw .fault

/-- The unquoted characters that a word begins with. -/
def plainStart : Word → List Char
  | .char c false :: rest => c :: plainStart rest
  | _ => []

mutual

/-- The atoms of a word. -/
def expand (output : Output) : (fuel : Nat) → Expansion → Word → Run (List Atom)
  | 0, _, _ => giveUp
  | _ + 1, _, [] => return []
  | fuel + 1, x, p :: rest => do
    match if x.splits then plainStart (p :: rest) else [] with
    | [] =>
      let first ← expandPiece output fuel x p
      return first ++ (← expand output fuel x rest)
    | chars =>
      let first := valueAtoms false (String.ofList chars)
      return first ++ (← expand output fuel x (rest.drop (chars.length - 1)))

def expandPiece (output : Output) : (fuel : Nat) → Expansion → Piece → Run (List Atom)
  | 0, _, _ => giveUp
  | fuel + 1, x, p => do
    match p with
    | .char c quoted => return [.char c quoted]
    | .mark => return [.mark]
    | .malformed => fail "Bad substitution"
    | .sum e quoted =>
      let text := textOf (← expand output fuel {} e)
      return valueAtoms quoted (← sum text)
    | .output script quoted => return valueAtoms quoted (← output script)
    | .value name form quoted => expandValue output fuel x name form quoted

def expandValue (output : Output) : (fuel : Nat) → Expansion → (name : String) → Form →
    (quoted : Bool) → Run (List Atom)
  | 0, _, _, _, _ => giveUp
  | fuel + 1, x, name, form, quoted => do
    match form with
    | .plain =>
      let text ← requested x.full quoted name
      return (← get).atomsOf quoted name text
    | .size =>
      let text ← requested false quoted name
      return valueAtoms quoted (toString text.length)
    | .trimmed atEnd longest pattern =>
      let text ← requested x.full quoted name
      let pattern := patternOf (← expand output fuel {} ((← get).withHome pattern))
      let text := (if atEnd then trimEnd else trimStart) longest pattern text
      return (← get).atomsOf quoted name text
    | .fallback kind orEmpty word =>
      let s ← get
      let text := (s.text? x.full quoted name).filter fun text => !(orEmpty && text.isEmpty)
      let insertWord : Run (List Atom) :=
        expand output fuel { x with splits := !quoted } (s.withHome word)
      match kind, text with
      | .instead, none => return s.atomsOf quoted name []
      | .instead, some _ | .use, none => insertWord
      | .complain, none =>
        let message := textOf (← expand output fuel {} (s.withHome word))
        fail (name ++ ": " ++ if word.isEmpty then missingText orEmpty else message)
      | .assign, none =>
        assign name (textOf (← expand output fuel {} (s.withHome word)))
        let s ← get
        return s.atomsOf quoted name ((s.text? x.full quoted name).getD [])
      | _, some text => return s.atomsOf quoted name text

end

/-! ## Fields -/

/-- The fields that a word stands for. -/
def fieldsOf (output : Output) (fuel : Nat) (w : Word) : Run (List String) := do
  let atoms ← expand output fuel { full := true } ((← get).withHome w)
  let s ← get
  return (split s.separators none atoms).flatMap (Glob.expand s)

/-- The fields that words stand for. -/
def allFieldsOf (output : Output) (fuel : Nat) : List Word → Run (List String)
  | [] => return []
  | w :: rest => do
    let first ← fieldsOf output fuel w
    return first ++ (← allFieldsOf output fuel rest)

/-- The text that a word stands for. -/
def wordText (output : Output) (fuel : Nat) (w : Word) : Run String := do
  return textOf (← expand output fuel {} ((← get).withHome w))

/-- The value that a word stands for in an assignment. -/
def assignedText (output : Output) (fuel : Nat) (w : Word) : Run String := do
  return textOf (← expand output fuel {} ((← get).withHomes w))

/-- The pattern that a word stands for. -/
def wordPattern (output : Output) (fuel : Nat) (w : Word) : Run Pattern := do
  return patternOf (← expand output fuel {} ((← get).withHome w))

/-- The text of a word without tildes. -/
def hereText (output : Output) (fuel : Nat) (w : Word) : Run String := do
  return textOf (← expand output fuel {} w)

end RobotHost.Shell
