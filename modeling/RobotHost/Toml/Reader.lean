import RobotHost.Toml.Table

/-!
# Reading TOML text

`Toml.read?` gives the document that a text says, or nothing if the text is not well formed.
-/

namespace RobotHost.Toml

/-- The key of an assignment, apart from its last part. -/
def splitKey : List String → Option (List String × String)
  | [] => none
  | [key] => some ([], key)
  | part :: rest => (splitKey rest).map fun (path, key) => (part :: path, key)

mutual

/-- The value that starts here. `fuel` bounds the number of values, and `room` how many containers
may still be opened. -/
def value? (fuel room : Nat) (cs : List Char) : Option (Document × List Char) :=
  match fuel with
  | 0 => none
  | fuel + 1 =>
    match cs with
    | '"' :: _ | '\'' :: _ => (string? cs).map fun (s, rest) => (.string s, rest)
    | '[' :: rest =>
      match room with
      | 0 => none
      | room + 1 =>
        match skipLines (rest.length + 1) rest with
        | ']' :: rest => some (.array [] .lenient, rest)
        | rest => elements? fuel room rest []
    | '\x7b' :: rest =>
      match room with
      | 0 => none
      | room + 1 =>
        match skipSpaces rest with
        | '\x7d' :: rest => some (.object [] .strict, rest)
        | rest => pairs? fuel room rest (.mk false false [])
    | 't' :: 'r' :: 'u' :: 'e' :: rest => some (.bool true, rest)
    | 'f' :: 'a' :: 'l' :: 's' :: 'e' :: rest => some (.bool false, rest)
    | cs => scalar? cs

/-- The elements of a list from here on; a comma may stand after the last. -/
def elements? (fuel room : Nat) (cs : List Char) (acc : List Document) :
    Option (Document × List Char) :=
  match fuel with
  | 0 => none
  | fuel + 1 =>
    match value? fuel room cs with
    | none => none
    | some (d, rest) =>
      match skipLines (rest.length + 1) rest with
      | ',' :: rest =>
        match skipLines (rest.length + 1) rest with
        | ']' :: rest => some (.array (d :: acc).reverse .lenient, rest)
        | rest => elements? fuel room rest (d :: acc)
      | ']' :: rest => some (.array (d :: acc).reverse .lenient, rest)
      | _ => none

/-- The assignments of an inline table from here on. -/
def pairs? (fuel room : Nat) (cs : List Char) (t : Table) : Option (Document × List Char) :=
  match fuel with
  | 0 => none
  | fuel + 1 =>
    match key? cs with
    | some (parts, '=' :: rest) =>
      match splitKey parts, value? fuel room (skipSpaces rest) with
      | some (path, key), some (d, rest) =>
        match t.assign path key d with
        | none => none
        | some t =>
          match skipSpaces rest with
          | ',' :: rest => pairs? fuel room rest t
          | '\x7d' :: rest => some (t.toDocument, rest)
          | _ => none
      | _, _ => none
    | _ => none

end

/-- A header with one bracket, whose opening bracket was just read. -/
def header? (cs : List Char) : Option (List String × List Char) := do
  let (path, rest) ← key? cs
  let rest ← exactly? ']' rest
  let rest ← restOfLine? rest
  return (path, rest)

/-- A header with two brackets, whose opening brackets were just read. -/
def listedHeader? (cs : List Char) : Option (List String × List Char) := do
  let (path, rest) ← key? cs
  let rest ← exactly? ']' rest
  let rest ← exactly? ']' rest
  let rest ← restOfLine? rest
  return (path, rest)

/-- An assignment on a line of its own. -/
def assignment? (cs : List Char) : Option (List String × String × Document × List Char) := do
  let (parts, rest) ← key? cs
  let (path, key) ← splitKey parts
  let rest ← exactly? '=' rest
  let (d, rest) ← value? (2 * rest.length + 2) nestingLimit (skipSpaces rest)
  let rest ← restOfLine? rest
  return (path, key, d, rest)

/-- Reads line by line. `fuel` bounds the number of lines. -/
def lines? : (fuel : Nat) → List Char → Outline → Option Outline
  | 0, _, _ => none
  | fuel + 1, cs, l =>
    match skipSpaces cs with
    | [] => some l
    | '#' :: rest =>
      match restOfLine? ('#' :: rest) with
      | some rest => lines? fuel rest l
      | none => none
    | '[' :: '[' :: rest =>
      match listedHeader? rest with
      | some (path, rest) => (l.openListed path).bind (lines? fuel rest)
      | none => none
    | '[' :: rest =>
      match header? rest with
      | some (path, rest) => (l.openTable path).bind (lines? fuel rest)
      | none => none
    | cs =>
      match lineEnd? cs with
      | some rest => lines? fuel rest l
      | none =>
        match assignment? cs with
        | some (path, key, d, rest) => (l.assign path key d).bind (lines? fuel rest)
        | none => none

/-- The document of a text. A byte order mark at its start is left out. -/
def read? (text : String) : Option Document :=
  let cs :=
    match text.toList with
    | '\ufeff' :: rest => rest
    | cs => cs
  (lines? (cs.length + 1) cs {}).bind fun l => l.close.map Table.toDocument

end RobotHost.Toml
