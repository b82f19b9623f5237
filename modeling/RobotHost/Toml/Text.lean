import RobotHost.Json.Reader

/-!
# TOML: blanks, comments, keys and strings

The small pieces of a TOML text. Each reader takes the characters from its place on and gives what
it read with the characters after it, or nothing if the text is not of its form.
-/

namespace RobotHost.Toml

/-! ## Blanks, line ends and comments -/

def isSpace (c : Char) : Bool := c = ' ' || c = '\t'

def skipSpaces (cs : List Char) : List Char := cs.dropWhile isSpace

/-- Takes a line end: a line feed, with or without a carriage return before it. -/
def lineEnd? : List Char → Option (List Char)
  | '\n' :: rest => some rest
  | '\r' :: '\n' :: rest => some rest
  | _ => none

/-- The characters of a comment: the tabulator and all that are not control characters. -/
def isCommentChar (c : Char) : Bool := c = '\t' || (32 ≤ c.toNat && c.toNat ≠ 127)

/-- Skips a comment, if one starts here, up to the end of its line. -/
def skipComment : List Char → List Char
  | '#' :: rest => rest.dropWhile isCommentChar
  | cs => cs

/-- Takes the rest of a line that holds nothing but blanks and a comment. -/
def restOfLine? (cs : List Char) : Option (List Char) :=
  match skipComment (skipSpaces cs) with
  | [] => some []
  | rest => lineEnd? rest

/-- Skips blanks, line ends and comments. `fuel` bounds the number of lines. -/
def skipLines : (fuel : Nat) → List Char → List Char
  | 0, cs => cs
  | fuel + 1, cs =>
    let rest := skipComment (skipSpaces cs)
    match lineEnd? rest with
    | some rest => skipLines fuel rest
    | none => rest

/-! ## Strings -/

/-- The characters that stand for themselves in a string between double quotes. -/
def isPlain (c : Char) : Bool :=
  c = '\t' || (32 ≤ c.toNat && c ≠ '"' && c ≠ '\\' && c.toNat ≠ 127)

/-- The characters of a string between single quotes. -/
def isLiteral (c : Char) : Bool :=
  c = '\t' || (32 ≤ c.toNat && c ≠ '\'' && c.toNat ≠ 127)

/-- The character whose number is given in `count` hexadecimal digits. -/
def hexChar? (count : Nat) (cs : List Char) : Option (Char × List Char) := do
  let ds ← (cs.take count).mapM Json.hexValue?
  if ds.length ≠ count then none
  else
    let n := ds.foldl (fun n d => 16 * n + d) 0
    if n < 0xD800 ∨ (0xE000 ≤ n ∧ n < 0x110000) then some (Char.ofNat n, cs.drop count) else none

/-- The character of the escape whose backslash was just read. -/
def escape? : List Char → Option (Char × List Char)
  | 'b' :: rest => some ('\x08', rest)
  | 'f' :: rest => some ('\x0c', rest)
  | 'n' :: rest => some ('\n', rest)
  | 'r' :: rest => some ('\r', rest)
  | 't' :: rest => some ('\t', rest)
  | '\\' :: rest => some ('\\', rest)
  | '"' :: rest => some ('"', rest)
  | 'u' :: rest => hexChar? 4 rest
  | 'U' :: rest => hexChar? 8 rest
  | _ => none

/-- The string between double quotes whose opening quote was just read. -/
def basic? : (fuel : Nat) → List Char → List Char → Option (String × List Char)
  | 0, _, _ => none
  | fuel + 1, cs, acc =>
    match cs with
    | '"' :: rest => some (String.ofList acc.reverse, rest)
    | '\\' :: rest =>
      match escape? rest with
      | some (c, rest) => basic? fuel rest (c :: acc)
      | none => none
    | c :: rest => if isPlain c then basic? fuel rest (c :: acc) else none
    | [] => none

/-- The string between single quotes whose opening quote was just read. -/
def literal? (cs : List Char) : Option (String × List Char) :=
  match cs.dropWhile isLiteral with
  | '\'' :: rest => some (String.ofList (cs.takeWhile isLiteral), rest)
  | _ => none

/-- Skips blanks and line ends after a backslash that ends a line. -/
def skipFolded : (fuel : Nat) → List Char → List Char
  | 0, cs => cs
  | fuel + 1, cs =>
    let rest := skipSpaces cs
    match lineEnd? rest with
    | some rest => skipFolded fuel rest
    | none => rest

/-- The end of a string between triple quotes, at a run of quotes: at most two of the run belong
to the string, and the last three close it. -/
def closing? (quote : Char) (cs : List Char) : Option (Nat × List Char) :=
  let run := (cs.takeWhile (· = quote)).length
  if run < 3 then none else some (min (run - 3) 2, cs.drop (min run 5))

/-- The string between triple double quotes, from its first character on. A line end counts as a
line feed; a backslash at the end of a line takes the blanks and line ends after it away. -/
def multilineBasic? : (fuel : Nat) → List Char → List Char → Option (String × List Char)
  | 0, _, _ => none
  | fuel + 1, cs, acc =>
    match cs with
    | '"' :: rest =>
      match closing? '"' cs with
      | some (n, rest) => some (String.ofList (acc.reverse ++ List.replicate n '"'), rest)
      | none => multilineBasic? fuel rest ('"' :: acc)
    | '\\' :: rest =>
      match lineEnd? (skipSpaces rest) with
      | some rest => multilineBasic? fuel (skipFolded (rest.length + 1) rest) acc
      | none =>
        match escape? rest with
        | some (c, rest) => multilineBasic? fuel rest (c :: acc)
        | none => none
    | c :: rest =>
      match lineEnd? cs with
      | some rest => multilineBasic? fuel rest ('\n' :: acc)
      | none => if isPlain c then multilineBasic? fuel rest (c :: acc) else none
    | [] => none

/-- The string between triple single quotes, from its first character on. -/
def multilineLiteral? : (fuel : Nat) → List Char → List Char → Option (String × List Char)
  | 0, _, _ => none
  | fuel + 1, cs, acc =>
    match cs with
    | '\'' :: rest =>
      match closing? '\'' cs with
      | some (n, rest) => some (String.ofList (acc.reverse ++ List.replicate n '\''), rest)
      | none => multilineLiteral? fuel rest ('\'' :: acc)
    | c :: rest =>
      match lineEnd? cs with
      | some rest => multilineLiteral? fuel rest ('\n' :: acc)
      | none => if isLiteral c then multilineLiteral? fuel rest (c :: acc) else none
    | [] => none

/-- A line end right after the opening quotes does not belong to the string. -/
def afterOpening (cs : List Char) : List Char := (lineEnd? cs).getD cs

/-- The string that starts here, of any of the four forms. -/
def string? (cs : List Char) : Option (String × List Char) :=
  match cs with
  | '"' :: '"' :: '"' :: rest => multilineBasic? (rest.length + 1) (afterOpening rest) []
  | '"' :: rest => basic? (rest.length + 1) rest []
  | '\'' :: '\'' :: '\'' :: rest => multilineLiteral? (rest.length + 1) (afterOpening rest) []
  | '\'' :: rest => literal? rest
  | _ => none

/-! ## Keys -/

def isBareKeyChar (c : Char) : Bool := c.isAlphanum || c = '-' || c = '_'

/-- One part of a key. -/
def keyPart? (cs : List Char) : Option (String × List Char) :=
  match cs with
  | '"' :: rest => basic? (rest.length + 1) rest []
  | '\'' :: rest => literal? rest
  | cs =>
    match cs.takeWhile isBareKeyChar with
    | [] => none
    | part => some (String.ofList part, cs.dropWhile isBareKeyChar)

/-- How deep keys, lists and inline tables may go. -/
def nestingLimit : Nat := 79

/-- The parts of a key from here on, with the blanks around them. -/
def keyParts? : (fuel : Nat) → List Char → Option (List String × List Char)
  | 0, _ => none
  | fuel + 1, cs => do
    let (part, rest) ← keyPart? (skipSpaces cs)
    match skipSpaces rest with
    | '.' :: rest => do
      let (parts, rest) ← keyParts? fuel rest
      return (part :: parts, rest)
    | rest => return ([part], rest)

/-- A key: parts between dots. -/
def key? (cs : List Char) : Option (List String × List Char) := keyParts? nestingLimit cs

end RobotHost.Toml
