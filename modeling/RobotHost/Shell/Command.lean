import RobotHost.Shell.Bytes

/-!
# Shell commands

A script is a sequence of commands. A command is a simple one, which names a program and its
arguments, or is put together from others. A word of a command is a list of pieces, some of which
stand for texts that are found only when the command is run: values of parameters, outputs of other
commands, and sums.

A piece is *quoted* if what it stands for is taken as it is: not split at blanks, and with no
special meaning in a pattern.
-/

namespace RobotHost.Shell

/-- When a value is replaced, and by what. -/
inductive Fallback where
  /-- A missing value by the word. -/
  | use
  /-- A missing value by the word, which also becomes the value. -/
  | assign
  /-- A missing value is an error. -/
  | complain
  /-- A present value by the word. -/
  | instead
deriving DecidableEq, Repr

/-- How a redirection changes a descriptor. -/
inductive Redirection where
  | read
  /-- The target is emptied, unless the options keep files. -/
  | write
  /-- The target is emptied, whatever the options say. -/
  | overwrite
  | append
  | readWrite
  /-- The target is the number of another descriptor, or a dash. -/
  | same
  /-- The target is the text itself. -/
  | here
deriving DecidableEq, Repr

mutual

inductive Piece where
  | char (c : Char) (quoted : Bool)
  /-- The start of a quoted part, which makes a word even if nothing is in it. -/
  | mark
  | value (parameter : String) (form : Form) (quoted : Bool)
  | output (script : Option Command) (quoted : Bool)
  | sum (expression : List Piece) (quoted : Bool)
  /-- A parameter that is not written as one. -/
  | malformed

/-- What is asked about a parameter. -/
inductive Form where
  | plain
  | size
  /-- With a word for missing values, and if `orEmpty` for empty ones too. -/
  | fallback (kind : Fallback) (orEmpty : Bool) (word : List Piece)
  /-- Without a part at one end that matches a pattern: the longest such part or the shortest. -/
  | trimmed (atEnd longest : Bool) (pattern : List Piece)

inductive Redirect where
  | mk (descriptor : Nat) (kind : Redirection) (target : List Piece)

inductive Command where
  | simple (line : Nat) (assignments : List (String × List Piece)) (words : List (List Piece))
    (redirects : List Redirect)
  | pipeline (stages : List Command)
  | negated (c : Command)
  /-- The second is run if the first succeeds. -/
  | both (first second : Command)
  /-- The second is run if the first fails. -/
  | either (first second : Command)
  | sequence (first second : Command)
  | background (line : Nat) (c : Command)
  | subshell (line : Nat) (c : Command) (redirects : List Redirect)
  | redirected (line : Nat) (c : Command) (redirects : List Redirect)
  | conditional (test yes : Command) (no : Option Command)
  /-- The body is run again as long as the test fails, if `failing`, or succeeds. -/
  | loop (failing : Bool) (test body : Command)
  /-- The body is run for each of the words. -/
  | each (line : Nat) (parameter : String) (words : List (List Piece)) (body : Command)
  /-- The first arm is run that has a pattern for the word. -/
  | choice (line : Nat) (word : List Piece) (arms : List (List (List Piece) × Option Command))
  | define (name : String) (body : Command)

end

abbrev Word := List Piece

namespace Word

/-- The text of a word that holds nothing but unquoted characters. -/
def plain? (w : Word) : Option String :=
  let chars := w.mapM fun p =>
    match p with
    | .char c false => some c
    | _ => none
  chars.map String.ofList

/-- Whether no part of a word is quoted. -/
def isUnquoted (w : Word) : Bool :=
  w.all fun p =>
    match p with
    | .char _ quoted | .value _ _ quoted | .output _ quoted | .sum _ quoted => !quoted
    | .mark => false
    | .malformed => true

/-- The characters of a word without its quotes. -/
def literal (w : Word) : List Char :=
  w.filterMap fun p =>
    match p with
    | .char c _ => some c
    | _ => none

/-- The assignment that a word makes, if it begins with a name and an equals sign. -/
def assignment? (w : Word) : Option (String × Word) := go [] w
where
  go (name : List Char) : Word → Option (String × Word)
    | .char '=' false :: value =>
      let name := String.ofList name.reverse
      if isName name then some (name, value) else none
    | .char c false :: rest => if isNameChar c then go (c :: name) rest else none
    | _ => none

end Word

/-! ## Names -/

/-- The words that shape commands. -/
def reserved : List String :=
  ["!", "\x7b", "\x7d", "case", "do", "done", "elif", "else", "esac", "fi", "for", "if", "in",
    "then", "until", "while"]

/-- The commands of the shell itself whose errors end it. -/
def specialCommands : List String :=
  [".", ":", "break", "continue", "eval", "exec", "exit", "export", "local", "readonly", "return",
    "set", "shift", "times", "trap", "unset"]

end RobotHost.Shell
