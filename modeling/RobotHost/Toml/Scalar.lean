import RobotHost.Toml.Text

/-!
# TOML: numbers and dates

A date or time is kept as its normalised text, in an object with the one member `datetimeKey`.
-/

namespace RobotHost.Toml

/-! ## Numbers -/

/-- Digits of a base, with single underscores between them, from the second digit on. -/
def moreDigits (value? : Char → Option Nat) : List Char → List Nat → List Nat × List Char
  | '_' :: c :: rest, acc =>
    match value? c with
    | some d => moreDigits value? rest (d :: acc)
    | none => (acc.reverse, '_' :: c :: rest)
  | c :: rest, acc =>
    match value? c with
    | some d => moreDigits value? rest (d :: acc)
    | none => (acc.reverse, c :: rest)
  | [], acc => (acc.reverse, [])

/-- One or more digits of a base, with single underscores between them. -/
def digits? (value? : Char → Option Nat) : List Char → Option (List Nat × List Char)
  | c :: rest => (value? c).map fun d => moreDigits value? rest [d]
  | [] => none

/-- The value of a digit of a base up to sixteen. -/
def digit? (base : Nat) (c : Char) : Option Nat :=
  (Json.hexValue? c).bind fun d => if d < base then some d else none

/-- A sign, if there is one: whether it is a minus. -/
def sign : List Char → Bool × List Char
  | '-' :: rest => (true, rest)
  | '+' :: rest => (false, rest)
  | cs => (false, cs)

/-- The whole part of a decimal number: a zero alone, or digits that start with another one. -/
def whole? : List Char → Option (List Nat × List Char)
  | '0' :: rest => some ([0], rest)
  | cs => digits? (digit? 10) cs

/-- A whole number as a document, if it fits in 64 bits with sign. -/
def int64? (n : Int) : Option Document :=
  if -(Nat.pow 2 63) ≤ n ∧ n < Nat.pow 2 63 then some (.int n) else none

/-- A whole number in a base that its first two characters name. -/
def prefixed? (base : Nat) (cs : List Char) : Option (Document × List Char) := do
  let (ds, rest) ← digits? (digit? base) cs
  let d ← int64? (ds.foldl (fun n d => base * n + d) 0 : Nat)
  return (d, rest)

/-- A whole number. -/
def integer? (cs : List Char) : Option (Document × List Char) :=
  match cs with
  | '0' :: 'x' :: rest => prefixed? 16 rest
  | '0' :: 'o' :: rest => prefixed? 8 rest
  | '0' :: 'b' :: rest => prefixed? 2 rest
  | cs => do
    let (negative, rest) := sign cs
    let (ds, rest) ← whole? rest
    let n := Decimal.ofDigits ds
    let d ← int64? (if negative then -n else n)
    return (d, rest)

/-- An exponent, whose mark was just read. -/
def exponent? (cs : List Char) : Option (Int × List Char) := do
  let (negative, rest) := sign cs
  let (ds, rest) ← digits? (digit? 10) rest
  let n := Decimal.ofDigits ds
  return (if negative then -n else n, rest)

/-- A number with a fraction, an exponent or both. It must not be too large on the positive side. -/
def decimal? (cs : List Char) : Option (Document × List Char) := do
  let (negative, rest) := sign cs
  let (whole, rest) ← whole? rest
  let (fraction, exponent, rest) ←
    match rest with
    | '.' :: rest => do
      let (ds, rest) ← digits? (digit? 10) rest
      match rest with
      | 'e' :: rest | 'E' :: rest => (exponent? rest).map fun (e, rest) => (ds, e, rest)
      | rest => some (ds, 0, rest)
    | 'e' :: rest | 'E' :: rest => (exponent? rest).map fun (e, rest) => ([], e, rest)
    | _ => none
  let x := Decimal.Digits.correct ⟨whole, fraction, exponent⟩
  if x.isInf ∧ ¬negative then none
  else return (.float (if negative then -x else x), rest)

/-- The numbers that are written as words. -/
def special? (cs : List Char) : Option (Document × List Char) :=
  let (negative, rest) := sign cs
  match rest with
  | 'i' :: 'n' :: 'f' :: rest => some (.float (if negative then -1.0 / 0.0 else 1.0 / 0.0), rest)
  | 'n' :: 'a' :: 'n' :: rest => some (.float (0.0 / 0.0), rest)
  | _ => none

/-! ## Dates and times -/

/-- Exactly `count` digits, as a number from `low` to `high`. -/
def fixed? (count low high : Nat) (cs : List Char) : Option (Nat × List Char) := do
  let ds ← (cs.take count).mapM (digit? 10)
  let n := Decimal.ofDigits ds
  if ds.length = count ∧ low ≤ n ∧ n ≤ high then some (n, cs.drop count) else none

/-- Takes one given character. -/
def exactly? (c : Char) : List Char → Option (List Char)
  | d :: rest => if d = c then some rest else none
  | [] => none

/-- A number with leading zeros up to a width. -/
def padded (width n : Nat) : String :=
  let ds := Nat.toDigits 10 n
  String.ofList (List.replicate (width - ds.length) '0' ++ ds)

def daysIn (year month : Nat) : Nat :=
  if month = 2 then
    if year % 4 = 0 ∧ (year % 100 ≠ 0 ∨ year % 400 = 0) then 29 else 28
  else if month = 4 ∨ month = 6 ∨ month = 9 ∨ month = 11 then 30
  else 31

def date? (cs : List Char) : Option (String × List Char) := do
  let (year, rest) ← fixed? 4 0 9999 cs
  let rest ← exactly? '-' rest
  let (month, rest) ← fixed? 2 1 12 rest
  let rest ← exactly? '-' rest
  let (day, rest) ← fixed? 2 1 (daysIn year month) rest
  return (padded 4 year ++ "-" ++ padded 2 month ++ "-" ++ padded 2 day, rest)

/-- The fraction of a second, to nine places, without the zeros at its end. -/
def secondFraction? : List Char → Option (String × List Char)
  | '.' :: rest =>
    match rest.takeWhile Char.isDigit with
    | [] => none
    | ds =>
      let kept := ((ds.take 9).reverse.dropWhile (· = '0')).reverse
      some (if kept.isEmpty then "" else "." ++ String.ofList kept, rest.dropWhile Char.isDigit)
  | cs => some ("", cs)

def time? (cs : List Char) : Option (String × List Char) := do
  let (hour, rest) ← fixed? 2 0 23 cs
  let rest ← exactly? ':' rest
  let (minute, rest) ← fixed? 2 0 59 rest
  let rest ← exactly? ':' rest
  let (second, rest) ← fixed? 2 0 60 rest
  let (fraction, rest) ← secondFraction? rest
  return (padded 2 hour ++ ":" ++ padded 2 minute ++ ":" ++ padded 2 second ++ fraction, rest)

/-- The distance from universal time, if it is given. Zero is not negative. -/
def offset? (cs : List Char) : Option (String × List Char) :=
  match cs with
  | 'Z' :: rest | 'z' :: rest => some ("Z", rest)
  | '+' :: _ | '-' :: _ => do
    let (negative, rest) := sign cs
    let (hours, rest) ← fixed? 2 0 23 rest
    let rest ← exactly? ':' rest
    let (minutes, rest) ← fixed? 2 0 59 rest
    let mark := if negative ∧ 0 < hours + minutes then "-" else "+"
    return (mark ++ padded 2 hours ++ ":" ++ padded 2 minutes, rest)
  | cs => some ("", cs)

/-- A time after a date, with its distance from universal time. -/
def timeAfterDate? (cs : List Char) : Option (String × List Char) :=
  match cs with
  | 'T' :: rest | 't' :: rest | ' ' :: rest => do
    let (time, rest) ← time? rest
    let (offset, rest) ← offset? rest
    return ("T" ++ time ++ offset, rest)
  | _ => none

/-- The member under which the text of a date or time is kept. -/
def datetimeKey : String := "$__toml_private_datetime"

def datetime? (cs : List Char) : Option (Document × List Char) :=
  let text :=
    match date? cs with
    | some (date, rest) =>
      match timeAfterDate? rest with
      | some (time, rest) => some (date ++ time, rest)
      | none => some (date, rest)
    | none => time? cs
  text.map fun (s, rest) => (.object [(some datetimeKey, .string s)] .strict, rest)

/-! ## Scalars -/

/-- A number, date or time. A text of one of these forms is never continued by a character that
may follow a value, so the first form that fits is the right one. -/
def scalar? (cs : List Char) : Option (Document × List Char) :=
  datetime? cs <|> decimal? cs <|> special? cs <|> integer? cs

end RobotHost.Toml
