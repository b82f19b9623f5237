import RobotHost.Shell.Number

/-!
# Sums

The expressions of the shell, on whole numbers of 64 bits. Names stand for values of parameters, and
can be given values. What is not asked for is not computed.
-/

namespace RobotHost.Shell

/-- What is wrong with a sum. -/
inductive SumFault where
  /-- Something else should stand at this place. -/
  | expected (what : String)
  | divisionByZero
  /-- A name has a value that is no number. -/
  | badNumber (text : String)
deriving DecidableEq, Repr

/-- What is said of a sum that is written so. -/
def SumFault.message (sum : String) : SumFault → String
  | expected what => "arithmetic expression: expecting " ++ what ++ ": \"" ++ sum ++ "\""
  | divisionByZero => "arithmetic expression: division by zero: \"" ++ sum ++ "\""
  | badNumber text => "Illegal number: " ++ text

inductive Operation where
  | times | divide | remainder | plus | minus | shiftLeft | shiftRight
  | less | atMost | greater | atLeast | equal | unequal | bitAnd | bitXor | bitOr
deriving DecidableEq, Repr

inductive Expression where
  | number (n : Int64)
  | name (s : String)
  | negative (e : Expression)
  | complement (e : Expression)
  | negated (e : Expression)
  | binary (o : Operation) (a b : Expression)
  | both (a b : Expression)
  | either (a b : Expression)
  | choice (test yes no : Expression)
  /-- The name gets the value, combined with its old one by the operation if there is one. -/
  | assign (name : String) (o : Option Operation) (e : Expression)

namespace Operation

/-- The operation that a text begins with, and how weakly it binds. -/
def read? : List Char → Option (Operation × Nat × List Char)
  | '*' :: rest => some (times, 0, rest)
  | '/' :: rest => some (divide, 0, rest)
  | '%' :: rest => some (remainder, 0, rest)
  | '+' :: rest => some (plus, 1, rest)
  | '-' :: rest => some (minus, 1, rest)
  | '<' :: '<' :: rest => some (shiftLeft, 2, rest)
  | '>' :: '>' :: rest => some (shiftRight, 2, rest)
  | '<' :: '=' :: rest => some (atMost, 3, rest)
  | '<' :: rest => some (less, 3, rest)
  | '>' :: '=' :: rest => some (atLeast, 3, rest)
  | '>' :: rest => some (greater, 3, rest)
  | '=' :: '=' :: rest => some (equal, 4, rest)
  | '!' :: '=' :: rest => some (unequal, 4, rest)
  | '&' :: '&' :: _ | '|' :: '|' :: _ => none
  | '&' :: rest => some (bitAnd, 5, rest)
  | '^' :: rest => some (bitXor, 6, rest)
  | '|' :: rest => some (bitOr, 7, rest)
  | _ => none

/-- The operation of an assignment that a text begins with; a plain assignment has none. -/
def readAssignment? : List Char → Option (Option Operation × List Char)
  | '=' :: '=' :: _ => none
  | '=' :: rest => some (none, rest)
  | cs =>
    match read? cs with
    | some (o, weakness, '=' :: rest) =>
      if weakness = 3 || weakness = 4 then none else some (some o, rest)
    | _ => none

/-- Divides towards zero; nothing can be divided by zero. -/
def result (o : Operation) (a b : Int64) : Except SumFault Int64 :=
  let truth (b : Bool) : Except SumFault Int64 := .ok (if b then 1 else 0)
  match o with
  | times => .ok (a * b)
  | divide => if b = 0 then .error .divisionByZero else .ok (a / b)
  | remainder => if b = 0 then .error .divisionByZero else .ok (a % b)
  | plus => .ok (a + b)
  | minus => .ok (a - b)
  | shiftLeft => .ok (a <<< b)
  | shiftRight => .ok (a >>> b)
  | less => truth (a < b)
  | atMost => truth (a ≤ b)
  | greater => truth (b < a)
  | atLeast => truth (b ≤ a)
  | equal => truth (a = b)
  | unequal => truth (a ≠ b)
  | bitAnd => .ok (a &&& b)
  | bitXor => .ok (a ^^^ b)
  | bitOr => .ok (a ||| b)

end Operation

namespace Expression

abbrev Reading := Except SumFault (Expression × List Char)

/-- Passes over spaces. -/
def trim (cs : List Char) : List Char := cs.dropWhile isSpace

mutual

/-- Reads an expression. -/
def read : (fuel : Nat) → List Char → Reading
  | 0, _ => .error (.expected "primary")
  | fuel + 1, cs =>
    let cs := trim cs
    let name := cs.takeWhile isNameChar
    match cs, Operation.readAssignment? (trim (cs.dropWhile isNameChar)) with
    | c :: _, some (o, rest) =>
      if isNameStart c then do
        let (e, rest) ← read fuel rest
        return (.assign (String.ofList name) o e, rest)
      else readChoice fuel cs
    | _, _ => readChoice fuel cs

def readChoice : (fuel : Nat) → List Char → Reading
  | 0, _ => .error (.expected "primary")
  | fuel + 1, cs => do
    let (test, rest) ← readEither fuel cs
    match trim rest with
    | '?' :: rest =>
      let (yes, rest) ← read fuel rest
      let ':' :: rest := trim rest | throw (.expected "':'")
      let (no, rest) ← readChoice fuel rest
      return (.choice test yes no, rest)
    | _ => return (test, rest)

def readEither : (fuel : Nat) → List Char → Reading
  | 0, _ => .error (.expected "primary")
  | fuel + 1, cs => do
    let (a, rest) ← readBoth fuel cs
    match trim rest with
    | '|' :: '|' :: rest =>
      let (b, rest) ← readEither fuel rest
      return (.either a b, rest)
    | _ => return (a, rest)

def readBoth : (fuel : Nat) → List Char → Reading
  | 0, _ => .error (.expected "primary")
  | fuel + 1, cs => do
    let (a, rest) ← readPrimary fuel cs
    let (a, rest) ← readMore fuel a 7 rest
    match trim rest with
    | '&' :: '&' :: rest =>
      let (b, rest) ← readBoth fuel rest
      return (.both a b, rest)
    | _ => return (a, rest)

/-- Reads the operations that follow an operand and bind no more weakly than `weakest`. -/
def readMore : (fuel : Nat) → (before : Expression) → (weakest : Nat) → List Char → Reading
  | 0, _, _, _ => .error (.expected "primary")
  | fuel + 1, before, weakest, cs =>
    match Operation.read? (trim cs) with
    | some (o, weakness, rest) =>
      if weakest < weakness then .ok (before, cs)
      else do
        let (b, rest) ← readPrimary fuel rest
        let (b, rest) ←
          if weakness = 0 then pure (b, rest) else readMore fuel b (weakness - 1) rest
        readMore fuel (.binary o before b) weakest rest
    | none => .ok (before, cs)

/-- Reads a number, a name, an expression in brackets, or one behind a sign. -/
def readPrimary : (fuel : Nat) → List Char → Reading
  | 0, _ => .error (.expected "primary")
  | fuel + 1, cs =>
    match trim cs with
    | '(' :: rest => do
      let (e, rest) ← read fuel rest
      let ')' :: rest := trim rest | throw (.expected "')'")
      return (e, rest)
    | '-' :: rest => (readPrimary fuel rest).map fun r => (.negative r.1, r.2)
    | '+' :: rest => readPrimary fuel rest
    | '~' :: rest => (readPrimary fuel rest).map fun r => (.complement r.1, r.2)
    | '!' :: rest => (readPrimary fuel rest).map fun r => (.negated r.1, r.2)
    | cs =>
      match cs with
      | c :: rest =>
        if isNameStart c then
          .ok (.name (String.ofList (c :: rest.takeWhile isNameChar)), rest.dropWhile isNameChar)
        else
          match unsigned? true cs with
          | some (n, rest) => .ok (.number (Int64.ofNat (min n maxNumber)), rest)
          | none => .error (.expected "primary")
      | [] => .error (.expected "primary")

end

/-- The expression that a text is. -/
def ofString (s : String) : Except SumFault Expression := do
  let (e, rest) ← read (8 * s.length + 16) s.toList
  if rest.all isSpace then return e else throw (.expected "EOF")

/-- What evaluation gives: a value, and the values that names were given on the way. -/
abbrev Evaluation := StateT (List (String × Int64)) (Except SumFault)

/-- The value of a name, given the texts of names before. -/
def valueOf (text : String → String) (name : String) : Evaluation Int64 := do
  match (← get).lookup name with
  | some n => return n
  | none =>
    match number? true (text name) with
    | some n => return Int64.ofInt n
    | none => throw (.badNumber (text name))

/-- The value of an expression. -/
def evaluate (text : String → String) : Expression → Evaluation Int64
  | number n => return n
  | name s => valueOf text s
  | negative e => do return -(← evaluate text e)
  | complement e => do return ~~~(← evaluate text e)
  | negated e => do return if (← evaluate text e) = 0 then 1 else 0
  | binary o a b => do
    let x ← evaluate text a
    let y ← evaluate text b
    o.result x y
  | both a b => do
    if (← evaluate text a) = 0 then return 0
    return if (← evaluate text b) = 0 then 0 else 1
  | either a b => do
    if (← evaluate text a) ≠ 0 then return 1
    return if (← evaluate text b) = 0 then 0 else 1
  | choice test yes no => do
    if (← evaluate text test) ≠ 0 then evaluate text yes else evaluate text no
  | assign s o e => do
    let y ← evaluate text e
    let y ←
      match o with
      | none => pure y
      | some o => do o.result (← valueOf text s) y
    modify fun given => (s, y) :: given
    return y

end Expression

end RobotHost.Shell
