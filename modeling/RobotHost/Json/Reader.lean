import RobotHost.Decimal.Reading
import RobotHost.Json.Document

/-!
# Reading JSON text

`Json.read` turns a text into the document it says. Reading never fails: a fault of the text is a
`broken` place in the document, and nothing after it is looked at.

A container that lies inside `nestingLimit` others is `unfit`. So is a number too large for a
binary64 value, and a string in which a surrogate escape stands alone.
-/

namespace RobotHost.Json

/-- How many containers may enclose one another where values are kept. -/
def nestingLimit : Nat := 127

/-- The blanks between tokens. -/
def isBlank (c : Char) : Bool := c = ' ' || c = '\n' || c = '\t' || c = '\r'

def skipBlanks (cs : List Char) : List Char := cs.dropWhile isBlank

/-! ## Strings -/

/-- The value of a hexadecimal digit. -/
def hexValue? (c : Char) : Option Nat :=
  if '0' ≤ c ∧ c ≤ '9' then some (c.toNat - 48)
  else if 'a' ≤ c ∧ c ≤ 'f' then some (c.toNat - 87)
  else if 'A' ≤ c ∧ c ≤ 'F' then some (c.toNat - 55)
  else none

/-- A piece of a string: a character, or a 16-bit unit that an escape gives. -/
inductive Piece where
  | char (c : Char)
  | unit (u : Nat)

/-- The four digits of a unit. -/
def hexUnit? : List Char → Option (Nat × List Char)
  | a :: b :: c :: d :: rest => do
    let a ← hexValue? a
    let b ← hexValue? b
    let c ← hexValue? c
    let d ← hexValue? d
    return (((a * 16 + b) * 16 + c) * 16 + d, rest)
  | _ => none

/-- The character of a one-letter escape. -/
def escaped? : Char → Option Char
  | '"' => some '"'
  | '\\' => some '\\'
  | '/' => some '/'
  | 'b' => some '\x08'
  | 'f' => some '\x0c'
  | 'n' => some '\n'
  | 'r' => some '\r'
  | 't' => some '\t'
  | _ => none

/-- The pieces of a string up to its closing quote. `fuel` bounds the number of characters. -/
def pieces? : (fuel : Nat) → List Char → List Piece → Option (List Piece × List Char)
  | 0, _, _ => none
  | _, [], _ => none
  | fuel + 1, c :: rest, acc =>
    if c = '"' then some (acc.reverse, rest)
    else if c = '\\' then
      match rest with
      | 'u' :: rest =>
        match hexUnit? rest with
        | some (u, rest) => pieces? fuel rest (.unit u :: acc)
        | none => none
      | e :: rest =>
        match escaped? e with
        | some c => pieces? fuel rest (.char c :: acc)
        | none => none
      | [] => none
    else if c.toNat < 32 then none
    else pieces? fuel rest (.char c :: acc)

def isHighSurrogate (u : Nat) : Bool := 0xD800 ≤ u && u < 0xDC00

def isLowSurrogate (u : Nat) : Bool := 0xDC00 ≤ u && u < 0xE000

/-- The characters of the pieces; a high surrogate and the low one after it are one character, and
a surrogate that stands alone is none. -/
def characters? : List Piece → Option (List Char)
  | [] => some []
  | .char c :: rest => (characters? rest).map (c :: ·)
  | .unit u :: rest =>
    if isLowSurrogate u then none
    else if isHighSurrogate u then
      match rest with
      | .unit v :: rest =>
        if isLowSurrogate v then
          (characters? rest).map
            (Char.ofNat (0x10000 + (u - 0xD800) * 0x400 + (v - 0xDC00)) :: ·)
        else none
      | _ => none
    else (characters? rest).map (Char.ofNat u :: ·)

/-- The string whose opening quote was just read: its text, if it has one, and what follows. -/
def string? (cs : List Char) : Option (Option String × List Char) :=
  (pieces? (cs.length + 1) cs []).map fun (ps, rest) =>
    ((characters? ps).map String.ofList, rest)

/-! ## Numbers -/

def digits (cs : List Char) : List Nat × List Char :=
  ((cs.takeWhile Char.isDigit).map fun c => c.toNat - 48, cs.dropWhile Char.isDigit)

/-- The exponent that follows the mark `e`. -/
def exponent? (cs : List Char) : Option (Int × List Char) :=
  let (negative, cs) :=
    match cs with
    | '-' :: rest => (true, rest)
    | '+' :: rest => (false, rest)
    | cs => (false, cs)
  match digits cs with
  | ([], _) => none
  | (ds, rest) =>
    let n := Decimal.ofDigits ds
    some (if negative then -n else n, rest)

/-- The value of a number: whole if it is written without fraction and exponent, fits in 64 bits
(with sign, if negative) and is not a negative zero. -/
def number (negative : Bool) (d : Decimal.Digits) (plain : Bool) : Document :=
  let (n, rest) := Decimal.absorb 0 d.whole
  if plain ∧ rest.isEmpty ∧ ¬(negative ∧ (n = 0 ∨ Nat.pow 2 63 < n)) then
    .int (if negative then -n else n)
  else
    match d.scaled with
    | some x => .float (if negative then -x else x)
    | none => .unfit

/-- The number that starts here, its sign apart. A leading zero stands alone. -/
def number? (negative : Bool) (cs : List Char) : Option (Document × List Char) := do
  let (whole, cs) := digits cs
  match whole with
  | [] => none
  | 0 :: _ :: _ => none
  | _ =>
    let (fraction, cs) ←
      match cs with
      | '.' :: rest =>
        match digits rest with
        | ([], _) => none
        | (ds, rest) => some (some ds, rest)
      | cs => some (none, cs)
    let (exponent, cs) ←
      match cs with
      | 'e' :: rest | 'E' :: rest => (exponent? rest).map fun (e, rest) => (some e, rest)
      | cs => some (none, cs)
    let d : Decimal.Digits := ⟨whole, fraction.getD [], exponent.getD 0⟩
    return (number negative d (fraction.isNone && exponent.isNone), cs)

/-! ## Values -/

/-- A word that stands for a value. -/
def word? (cs : List Char) : Option (Document × List Char) :=
  match cs with
  | 'n' :: 'u' :: 'l' :: 'l' :: rest => some (.null, rest)
  | 't' :: 'r' :: 'u' :: 'e' :: rest => some (.bool true, rest)
  | 'f' :: 'a' :: 'l' :: 's' :: 'e' :: rest => some (.bool false, rest)
  | _ => none

/-- A container, which is unfit where it is nested too deep. -/
def contained (depth : Nat) (d : Document) : Document :=
  if depth < nestingLimit then d else if d.skippable then .unfit else .broken

mutual

/-- The value that starts here and the text after it; there is none after a fault. `fuel` bounds
the number of tokens, and `depth` counts the containers around the value. -/
def value (fuel : Nat) (depth : Nat) (cs : List Char) : Document × Option (List Char) :=
  match fuel with
  | 0 => (.broken, none)
  | fuel + 1 =>
    match skipBlanks cs with
    | '"' :: rest =>
      match string? rest with
      | some (some s, rest) => (.string s, some rest)
      | some (none, rest) => (.unfit, some rest)
      | none => (.broken, none)
    | '[' :: rest =>
      match skipBlanks rest with
      | ']' :: rest => (contained depth (.array [] .strict), some rest)
      | rest =>
        let (items, ending, rest) := elements fuel (depth + 1) rest []
        (contained depth (.array items ending), rest)
    | '\x7b' :: rest =>
      match skipBlanks rest with
      | '\x7d' :: rest => (contained depth (.object [] .strict), some rest)
      | rest =>
        let (fields, ending, rest) := members fuel (depth + 1) rest []
        (contained depth (.object fields ending), rest)
    | '-' :: rest =>
      match number? true rest with
      | some (d, rest) => (d, some rest)
      | none => (.broken, none)
    | cs =>
      match word? cs, number? false cs with
      | some (d, rest), _ => (d, some rest)
      | none, some (d, rest) => (d, some rest)
      | none, none => (.broken, none)

/-- The elements of a list from here on. -/
def elements (fuel : Nat) (depth : Nat) (cs : List Char) (acc : List Document) :
    List Document × Ending × Option (List Char) :=
  match fuel with
  | 0 => (acc.reverse, .broken, none)
  | fuel + 1 =>
    match value fuel depth cs with
    | (d, none) => ((d :: acc).reverse, .broken, none)
    | (d, some rest) =>
      match skipBlanks rest with
      | ',' :: rest =>
        match skipBlanks rest with
        | ']' :: _ => ((d :: acc).reverse, .broken, none)
        | rest => elements fuel depth rest (d :: acc)
      | ']' :: rest => ((d :: acc).reverse, .strict, some rest)
      | _ => ((d :: acc).reverse, .broken, none)

/-- The members of an object from here on. A key is kept also where its value is malformed. -/
def members (fuel : Nat) (depth : Nat) (cs : List Char) (acc : List (Option String × Document)) :
    List (Option String × Document) × Ending × Option (List Char) :=
  match fuel with
  | 0 => (acc.reverse, .broken, none)
  | fuel + 1 =>
    match skipBlanks cs with
    | '"' :: rest =>
      match string? rest with
      | none => (acc.reverse, .broken, none)
      | some (key, rest) =>
        match skipBlanks rest with
        | ':' :: rest =>
          match value fuel depth rest with
          | (d, none) => (((key, d) :: acc).reverse, .broken, none)
          | (d, some rest) =>
            match skipBlanks rest with
            | ',' :: rest => members fuel depth rest ((key, d) :: acc)
            | '\x7d' :: rest => (((key, d) :: acc).reverse, .strict, some rest)
            | _ => (((key, d) :: acc).reverse, .broken, none)
        | _ => (((key, .broken) :: acc).reverse, .broken, none)
    | _ => (acc.reverse, .broken, none)

end

/-- A text read: the document, and whether nothing but blanks follows it. -/
structure Reading where
  document : Document
  complete : Bool

def read (text : String) : Reading :=
  let cs := text.toList
  match value (2 * cs.length + 2) 0 cs with
  | (d, none) => ⟨d, false⟩
  | (d, some rest) => ⟨d, (skipBlanks rest).isEmpty⟩

end RobotHost.Json
