import RobotHost.Shell.Basic

/-!
# Conditions

What `test` says of its arguments: whether a text is empty, how two texts or numbers compare, what
stands at a path, and combinations of these. The reader goes through the arguments from left to
right and gives, besides the truth, the arguments from the last one it looked at.
-/

namespace RobotHost.Shell

/-- Why a condition cannot be read. -/
inductive ConditionFault where
  | badNumber (text : String)
  | argumentExpected (operator : String)
  | closingExpected
  | unexpected (operator : String)
  | unclosed
deriving DecidableEq, Repr

def ConditionFault.message : ConditionFault → String
  | badNumber text => "Illegal number: " ++ text
  | argumentExpected operator => operator ++ ": argument expected"
  | closingExpected => "closing paren expected"
  | unexpected operator => operator ++ ": unexpected operator"
  | unclosed => "missing ]"

namespace Condition

def unaryOperators : List String :=
  ["-r", "-w", "-x", "-e", "-f", "-d", "-c", "-b", "-p", "-u", "-g", "-k", "-s", "-t", "-z", "-n",
    "-h", "-O", "-G", "-L", "-S"]

def binaryOperators : List String :=
  ["=", "!=", "<", ">", "-eq", "-ne", "-ge", "-gt", "-le", "-lt", "-nt", "-ot", "-ef"]

inductive Lexeme where
  | finish
  | operand
  | unary
  | binary
  | no
  | both
  | either
  | opening
  | closing
deriving DecidableEq, Repr

/-- What the first argument is; an operator may be an operand by its place. -/
def lexeme : List String → Lexeme
  | [] => .finish
  | s :: rest =>
    if unaryOperators.contains s then
      match rest with
      | [] => .operand
      | [_] => .unary
      | next :: _ => if binaryOperators.contains next then .operand else .unary
    else if binaryOperators.contains s then .binary
    else if s = "!" then .no
    else if s = "-a" then .both
    else if s = "-o" then .either
    else if s = "(" then if rest.isEmpty then .operand else .opening
    else if s = ")" then .closing
    else .operand

/-! ## Files -/

/-- Directories in which everybody may put files, but take away only their own. -/
def stickyPlaces : List Place :=
  [["tmp"], ["var", "tmp"], ["dev", "shm"], ["dev", "mqueue"], ["run", "lock"]]

/-- Directories that give their files to a group. -/
def groupPlaces : List Place := [["var", "mail"], ["var", "local"]]

/-- The place of a path. -/
def place? (s : Shell) (path : String) : Option Place :=
  (s.system.files.locate s.directory (gather path)).toOption

/-- What stands at a path; a descriptor must be open. -/
def node? (s : Shell) (path : String) : Option FileNode := do
  match ← s.system.files.node? (← place? s path) with
  | .device (.descriptor n) => (s.channel? n).map fun _ => .device (.descriptor n)
  | n => some n

/-- What the descriptor leads to that stands at a path. -/
def target? (s : Shell) (path : String) : Option Target := do
  match ← node? s path with
  | .device (.descriptor n) => return (← s.system.channels[← s.channel? n]?).target
  | _ => none

/-- Whether there is a link at a path. -/
def isLink (s : Shell) (path : String) : Bool :=
  match s.system.files.locateLink s.directory (gather path) with
  | .ok p =>
    match s.system.files.node? p with
    | some (.link _) => true
    | _ => false
  | .error _ => false

/-- Whether what stands at a path has the property that an operator asks for. -/
def ofFile (s : Shell) (operator path : String) : Bool :=
  match operator, node? s path, target? s path with
  | "-h", _, _ | "-L", _, _ => isLink s path
  | _, none, _ => false
  | "-e", _, _ | "-r", _, _ | "-w", _, _ | "-O", _, _ | "-G", _, _ => true
  | "-x", some .directory, _ | "-x", some (.program _), _ => true
  | "-f", some (.data _), _ | "-f", some (.program _), _ | "-f", _, some (.file _) => true
  | "-d", some .directory, _ | "-d", _, some .directory => true
  | "-s", some (.data content), _ => content.size ≠ 0
  | "-s", some .directory, _ | "-s", some (.program _), _ => true
  | "-p", _, some (.pipe _) => true
  | "-c", _, some .null | "-c", _, some .zero | "-c", _, some .full => true
  | "-c", some (.device (.descriptor _)), _ => false
  | "-c", some (.device _), _ => true
  | "-k", _, _ => (place? s path).any stickyPlaces.contains
  | "-g", _, _ => (place? s path).any groupPlaces.contains
  | _, _, _ => false

/-- Whether two paths compare as an operator asks for. -/
def ofFiles (s : Shell) (operator a b : String) : Bool :=
  match place? s a, place? s b with
  | some p, some q =>
    let isThere (p : Place) : Bool := (s.system.files.node? p).isSome
    isThere p && isThere q &&
      match operator with
      | "-ef" => p = q
      | "-nt" => s.system.files.time q < s.system.files.time p
      | _ => s.system.files.time p < s.system.files.time q
  | _, _ => false

/-! ## Comparisons -/

def number (text : String) : Except ConditionFault Int :=
  match number? false text with
  | some n => .ok n
  | none => .error (.badNumber text)

/-- Whether an argument has the property that an operator asks for. -/
def unary (s : Shell) (operator argument : String) : Except ConditionFault Bool :=
  match operator with
  | "-z" => .ok argument.isEmpty
  | "-n" => .ok !argument.isEmpty
  | "-t" => (number argument).map fun _ => false
  | _ => .ok (ofFile s operator argument)

/-- Whether two arguments compare as an operator asks for. -/
def binary (s : Shell) (operator a b : String) : Except ConditionFault Bool :=
  let numbers (compare : Int → Int → Bool) : Except ConditionFault Bool := do
    return compare (← number a) (← number b)
  match operator with
  | "=" => .ok (a = b)
  | "!=" => .ok (a ≠ b)
  | "<" => .ok (a < b)
  | ">" => .ok (b < a)
  | "-eq" => numbers fun x y => x = y
  | "-ne" => numbers fun x y => x ≠ y
  | "-ge" => numbers fun x y => y ≤ x
  | "-gt" => numbers fun x y => y < x
  | "-le" => numbers fun x y => x ≤ y
  | "-lt" => numbers fun x y => x < y
  | _ => .ok (ofFiles s operator a b)

/-! ## Reading -/

abbrev Reading := Except ConditionFault (Bool × List String)

mutual

/-- Reads conditions of which one must hold. -/
def readEither (s : Shell) : (fuel : Nat) → List String → Reading
  | 0, _ => .error .closingExpected
  | fuel + 1, args => do
    let (a, rest) ← readBoth s fuel args
    if lexeme (rest.drop 1) = .either then
      let (b, rest) ← readEither s fuel (rest.drop 2)
      return (a || b, rest)
    else return (a, rest)

/-- Reads conditions that must all hold. -/
def readBoth (s : Shell) : (fuel : Nat) → List String → Reading
  | 0, _ => .error .closingExpected
  | fuel + 1, args => do
    let (a, rest) ← readNo s fuel args
    if lexeme (rest.drop 1) = .both then
      let (b, rest) ← readBoth s fuel (rest.drop 2)
      return (a && b, rest)
    else return (a, rest)

/-- Reads a condition that may be negated. -/
def readNo (s : Shell) : (fuel : Nat) → List String → Reading
  | 0, _ => .error .closingExpected
  | fuel + 1, args => do
    if lexeme args = .no then
      let (a, rest) ← readNo s fuel (args.drop 1)
      return (!a, rest)
    else readPrimary s fuel args

def readPrimary (s : Shell) : (fuel : Nat) → List String → Reading
  | 0, _ => .error .closingExpected
  | fuel + 1, args => do
    match lexeme args, args with
    | .finish, _ => return (false, args)
    | .opening, _ :: rest =>
      if lexeme rest = .closing then return (false, rest)
      let (a, rest) ← readEither s fuel rest
      if lexeme (rest.drop 1) = .closing then return (a, rest.drop 1)
      else throw .closingExpected
    | .unary, operator :: argument :: rest =>
      return (← unary s operator argument, argument :: rest)
    | .unary, operator :: _ => throw (.argumentExpected operator)
    | _, a :: operator :: rest =>
      if lexeme (operator :: rest) = .binary then
        match rest with
        | [] => throw (.argumentExpected operator)
        | b :: rest => return (← binary s operator a b, b :: rest)
      else return (!a.isEmpty, args)
    | _, [a] => return (!a.isEmpty, args)
    | _, [] => return (false, [])

end

/-- Whether the arguments are true, in the order in which few of them are told apart: three with a
comparison in the middle first, then brackets and negations. -/
def holds (s : Shell) : (fuel : Nat) → List String → Except ConditionFault Bool
  | 0, _ | _, [] => .ok false
  | fuel + 1, args =>
    let plain (args : List String) : Except ConditionFault Bool := do
      let (a, rest) ← readEither s (8 * args.length + 8) args
      match rest with
      | operator :: _ :: _ => throw (.unexpected operator)
      | _ => return a
    match args with
    | [a, operator, b] =>
      if binaryOperators.contains operator then binary s operator a b
      else if a = "(" && b = ")" then plain [operator]
      else if a = "!" then (holds s fuel [operator, b]).map not
      else plain args
    | [a, b, c, d] =>
      if a = "(" && d = ")" then plain [b, c]
      else if a = "!" then (holds s fuel [b, c, d]).map not
      else plain args
    | _ => plain args

/-- The condition that a command asks for; in brackets, the last argument closes them. -/
def ofCommand (s : Shell) (name : String) (args : List String) : Except ConditionFault Bool :=
  let inBrackets := name.startsWith "["
  if inBrackets && !(args.getLast?.getD name).startsWith "]" then .error .unclosed
  else holds s 8 (if inBrackets then args.dropLast else args)

end Condition

end RobotHost.Shell
