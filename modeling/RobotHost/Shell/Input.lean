import RobotHost.NameMap
import RobotHost.Shell.Command

/-!
# The input of a reader

A reader of scripts takes characters from an `Input`, which also knows the line it is in, what
stands for what as the name of a command, and which texts are still to come below the line.

The text that stands for a name is put before the rest of the input. It is *open* until a character
behind it is taken; in an open text its own name stands for itself. The place where it ends is kept
as the number of characters that are left there.
-/

namespace RobotHost.Shell

abbrev Text := List Char

/-- What is wrong with a script. -/
structure Mistake where
  line : Nat
  message : String
deriving DecidableEq, Repr

inductive Token where
  | word (w : Word)
  | keyword (s : String)
  | operator (s : String)
  | redirect (descriptor : Nat) (kind : Redirection)
  /-- A text below the command; tabs at the start of its lines do not count if `stripped`. -/
  | here (descriptor : Nat) (stripped : Bool)
  | newline
  | finish

namespace Token

def inDoubleQuotes (s : String) : String := "\"" ++ s ++ "\""

/-- What a token is called in messages. -/
def title : Token → String
  | word _ => "word"
  | keyword s | operator s => inDoubleQuotes s
  | redirect _ _ | here _ _ => "redirection"
  | newline => "newline"
  | finish => "end of file"

/-- Whether this is the keyword. -/
def isKeyword (t : Token) (s : String) : Bool :=
  match t with
  | keyword k => k = s
  | _ => false

/-- Whether this is the operator. -/
def isOperator (t : Token) (s : String) : Bool :=
  match t with
  | operator o => o = s
  | _ => false

/-- Whether no command begins with this token, so that a list of commands ends. -/
def endsList : Token → Bool
  | operator s => s = ")" || s = ";;"
  | finish => true
  | keyword s => s ∈ ["\x7d", "do", "done", "elif", "else", "esac", "fi", "then"]
  | _ => false

end Token

/-- What a reader asks of the next token. -/
structure Wants where
  /-- Line ends are passed over. -/
  pastLines : Bool := false
  keywords : Bool := false
  /-- Texts are put in for words that have one. -/
  aliases : Bool := false

/-- A text that was put in for a name. -/
structure Insertion where
  name : String
  /-- How many characters are left where the text ends. -/
  left : Nat
  /-- Whether the text ends with a blank; then the next word may have a text as well. -/
  spaced : Bool

/-- A text that is to be read below the line. -/
structure Below where
  number : Nat
  delimiter : Text
  stripped : Bool
  /-- Whether nothing in the text is special. -/
  literal : Bool

structure Input where
  rest : Text
  line : Nat := 1
  aliases : NameMap String := .empty
  inserted : List Insertion := []
  /-- The names whose texts are open around this input. -/
  busy : List String := []
  /-- A token that was read and not used. -/
  back : Option Token := none
  /-- The word that was read last. -/
  word : Word := []
  below : List Below := []
  /-- How many texts below lines were asked for. -/
  asked : Nat := 0
  /-- The texts below lines, by number: those of an earlier reading, and those found. -/
  known : List (Nat × Word) := []
  found : List (Nat × Word) := []

/-- A part of a reading. -/
abbrev Reading := StateT Input (Except Mistake)

/-- Gives up. -/
def mistaken {α : Type} (message : String) : Reading α := do
  throw ⟨(← get).line, message⟩

/-- Gives up at a token where another one may be expected. -/
def unexpected {α : Type} (t : Token) (expected : Option Token) : Reading α :=
  match expected with
  | some e => mistaken (t.title ++ " unexpected (expecting " ++ e.title ++ ")")
  | none => mistaken (t.title ++ " unexpected")

/-! ## Characters -/

def peek? : Reading (Option Char) := do return (← get).rest.head?

/-- Takes a character. -/
def take : Reading Unit :=
  modify fun i =>
    match i.rest with
    | c :: rest => { i with rest, line := if c = '\n' then i.line + 1 else i.line }
    | [] => i

/-- The text behind joined lines, and how many there are. -/
def pastJoined : (lines : Nat) → Text → Nat × Text
  | n, '\\' :: '\n' :: rest => pastJoined (n + 1) rest
  | n, cs => (n, cs)

/-- Passes over joined lines: a backslash at the end of a line takes it away. -/
def joinLines : Reading Unit :=
  modify fun i =>
    let (n, rest) := pastJoined 0 i.rest
    { i with rest, line := i.line + n }

/-- The next character behind joined lines. -/
def peekJoined? : Reading (Option Char) := do
  joinLines
  peek?

/-- Takes a character if it is this one. -/
def takeIf (c : Char) : Reading Bool := do
  if (← peekJoined?) = some c then
    take
    return true
  else return false

/-- Takes characters as long as they are of a kind. -/
def takeWhile (p : Char → Bool) : Reading Text := do
  let cs := (← get).rest.takeWhile p
  modify fun i =>
    { i with rest := i.rest.drop cs.length, line := i.line + (cs.filter (· = '\n')).length }
  return cs

/-- Takes the characters of a name, which may go on over joined lines. -/
def takeName (p : Char → Bool) : (fuel : Nat) → Reading Text
  | 0 => return []
  | fuel + 1 => do
    joinLines
    match ← takeWhile p with
    | [] => return []
    | cs => return cs ++ (← takeName p fuel)

/-- Passes over blanks, joined lines and a comment. -/
def passBlanks : (fuel : Nat) → Reading Unit
  | 0 => return
  | fuel + 1 => do
    match ← peekJoined? with
    | some '#' => discard (takeWhile (· ≠ '\n'))
    | some c =>
      if isBlank c then
        take
        passBlanks fuel
    | none => return

/-! ## Texts for names -/

namespace Input

/-- The texts that are open. -/
def stillOpen (i : Input) : List Insertion := i.inserted.filter fun n => n.left ≤ i.rest.length

/-- The names that stand for themselves. -/
def busyNames (i : Input) : List String := i.busy ++ i.stillOpen.map Insertion.name

/-- The text that stands for a word as the name of a command. -/
def alias? (i : Input) (w : Word) : Option (String × String) := do
  let name ← w.plain?
  let text ← i.aliases.get? name
  if i.busyNames.contains name then none else some (name, text)

/-- Puts the text for a name before the rest. -/
def insertAlias (i : Input) (name text : String) : Input :=
  let n : Insertion :=
    ⟨name, i.rest.length, text.toList.getLast?.any isBlank⟩
  { i with rest := text.toList ++ i.rest, inserted := n :: i.stillOpen }

/-- Whether a text that ends with a blank was left between two moments. -/
def leftSpaced (before after : Input) : Bool :=
  before.stillOpen.any fun n =>
    n.spaced && n.left < before.rest.length && after.rest.length ≤ n.left

end Input

/-! ## Operators -/

/-- Reads what follows the sign of a redirection, which was taken. -/
def readRedirect (descriptor : Option Nat) (sign : Char) : Reading Token := do
  if sign = '>' then
    let d := descriptor.getD 1
    if ← takeIf '>' then return .redirect d .append
    else if ← takeIf '|' then return .redirect d .overwrite
    else if ← takeIf '&' then return .redirect d .same
    else return .redirect d .write
  else
    let d := descriptor.getD 0
    if ← takeIf '<' then return .here d (← takeIf '-')
    else if ← takeIf '&' then return .redirect d .same
    else if ← takeIf '>' then return .redirect d .readWrite
    else return .redirect d .read

/-- Reads an operator or a redirection, if the input begins with one. -/
def readOperator? : Reading (Option Token) := do
  let i ← get
  match i.rest with
  | [] => return some .finish
  | c :: _ =>
    take
    let twice (one two : String) : Reading (Option Token) := do
      return some (.operator (if ← takeIf c then two else one))
    if c = '\n' then return some .newline
    else if c = '&' then twice "&" "&&"
    else if c = '|' then twice "|" "||"
    else if c = ';' then twice ";" ";;"
    else if c = '(' || c = ')' then return some (.operator (String.singleton c))
    else if c = '<' || c = '>' then return some (← readRedirect none c)
    else
      let sign ← peekJoined?
      if c.isDigit && (sign = some '<' || sign = some '>') then
        take
        return some (← readRedirect (some (c.toNat - '0'.toNat)) (sign.getD '<'))
      set i
      return none

def isOperatorChar (c : Char) : Bool := c ∈ [';', '&', '|', '<', '>', '(', ')', '\n']

end RobotHost.Shell
