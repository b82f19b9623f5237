import RobotHost.Decimal.Reading

/-!
# Written numbers

The longest start of a text that is a number: digits in base ten or sixteen with a point and an
exponent, an infinite number, or what is no number. The value is rounded once.
-/

namespace RobotHost.Decimal

/-- A number that a text begins with. -/
structure Literal where
  value : Float
  /-- Whether the value is too large or too small to be written as it is. -/
  isOutOfRange : Bool
  rest : List Char

/-- The value of a digit in bases up to sixteen. -/
def digitOf? (base : Nat) (c : Char) : Option Nat :=
  let n :=
    if c.isDigit then c.toNat - '0'.toNat
    else if 'a' ≤ c && c ≤ 'f' then c.toNat - 'a'.toNat + 10
    else if 'A' ≤ c && c ≤ 'F' then c.toNat - 'A'.toNat + 10
    else base
  if n < base then some n else none

/-- The digits that a text begins with, and what follows. -/
def takeDigits (base : Nat) : List Char → List Nat × List Char
  | [] => ([], [])
  | c :: rest =>
    match digitOf? base c with
    | some d =>
      let (more, rest) := takeDigits base rest
      (d :: more, rest)
    | none => ([], c :: rest)

/-- The digits before and after a point, if there is at least one, and what follows. -/
def takePointed? (base : Nat) (cs : List Char) : Option (List Nat × List Nat × List Char) :=
  let (whole, rest) := takeDigits base cs
  let (fraction, rest) :=
    match rest with
    | '.' :: more =>
      let (fraction, after) := takeDigits base more
      if whole.isEmpty && fraction.isEmpty then ([], rest) else (fraction, after)
    | _ => ([], rest)
  if whole.isEmpty && fraction.isEmpty then none else some (whole, fraction, rest)

/-- The exponent behind this letter, if one is there, and what follows. -/
def takeExponent (letter : Char) (cs : List Char) : Int × List Char :=
  match cs with
  | c :: rest =>
    if c.toLower = letter then
      let (negative, more) :=
        match rest with
        | '-' :: more => (true, more)
        | '+' :: more => (false, more)
        | _ => (false, rest)
      match takeDigits 10 more with
      | ([], _) => (0, cs)
      | (digits, after) =>
        let n : Int := ofDigits digits
        (if negative then -n else n, after)
    else (0, cs)
  | [] => (0, [])

/-- What follows a text in letters of either case. -/
def afterLetters? (letters : String) (cs : List Char) : Option (List Char) :=
  if (cs.take letters.length).map Char.toLower = letters.toList then some (cs.drop letters.length)
  else none

def infinite : Float := 1.0 / 0.0

/-- The value that is no number. -/
def undefined : Float := 0.0 / 0.0

/-- The least positive value with all digits. -/
def leastNormal : Float := Float.ofScientific 22250738585072014 true 324

/-- Whether a value was rounded too much: digits were written, and it is infinite or very small. -/
def isStrained (digits : List Nat) (x : Float) : Bool :=
  digits.any (· ≠ 0) && (x.isInf || x < leastNormal)

/-- The value of `n · 2^e`. -/
def scaledByTwo (n : Nat) (e : Int) : Float :=
  let size := (Nat.log2 n : Int) + e
  if n = 0 || size < -1100 then 0.0 else if 1024 < size then infinite else (Float.ofNat n).scaleB e

/-- A number in base sixteen after its first two characters. -/
def hexadecimal? (cs : List Char) : Option Literal := do
  let (whole, fraction, rest) ← takePointed? 16 cs
  let (e, rest) := takeExponent 'p' rest
  let n := (whole ++ fraction).foldl (fun n d => 16 * n + d) 0
  let x := scaledByTwo n (e - 4 * fraction.length)
  return ⟨x, x.isInf || (n ≠ 0 && x == 0.0), rest⟩

def decimal? (cs : List Char) : Option Literal := do
  let (whole, fraction, rest) ← takePointed? 10 cs
  let (exponent, rest) := takeExponent 'e' rest
  let x := Digits.correct { whole, fraction, exponent }
  return ⟨x, isStrained (whole ++ fraction) x, rest⟩

/-- A number without a sign. -/
def unsignedLiteral? (cs : List Char) : Option Literal :=
  match afterLetters? "infinity" cs, afterLetters? "inf" cs, afterLetters? "nan" cs with
  | some rest, _, _ | none, some rest, _ => some ⟨infinite, false, rest⟩
  | none, none, some rest =>
    let rest :=
      match rest with
      | '(' :: more =>
        match more.dropWhile fun c => c.isAlphanum || c = '_' with
        | ')' :: after => after
        | _ => rest
      | _ => rest
    some ⟨undefined, false, rest⟩
  | none, none, none =>
    match cs with
    | '0' :: x :: more =>
      match (if x.toLower = 'x' then hexadecimal? more else none) with
      | some l => some l
      | none => decimal? cs
    | _ => decimal? cs

/-- The number that a text begins with. -/
def literal? (cs : List Char) : Option Literal :=
  match cs with
  | '-' :: rest => (unsignedLiteral? rest).map fun l => { l with value := -l.value }
  | '+' :: rest => unsignedLiteral? rest
  | _ => unsignedLiteral? cs

end RobotHost.Decimal
