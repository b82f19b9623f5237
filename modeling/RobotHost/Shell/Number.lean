import RobotHost.Shell.Bytes

/-!
# Numbers of the shell

Whole numbers are read in base ten, or in the base that they begin with: `0x` for sixteen and `0`
for eight. They have 64 bits.
-/

namespace RobotHost.Shell

/-- The value of a digit in bases up to sixteen. -/
def digit? (base : Nat) (c : Char) : Option Nat :=
  let n :=
    if c.isDigit then c.toNat - '0'.toNat
    else if 'a' ≤ c && c ≤ 'f' then c.toNat - 'a'.toNat + 10
    else if 'A' ≤ c && c ≤ 'F' then c.toNat - 'A'.toNat + 10
    else base
  if n < base then some n else none

/-- Reads the digits that a text begins with, in addition to a number read before. -/
def digits (base : Nat) (before : Nat) : List Char → Nat × List Char
  | [] => (before, [])
  | c :: rest =>
    match digit? base c with
    | some d => digits base (before * base + d) rest
    | none => (before, c :: rest)

/-- Reads a number without a sign; at least one digit must be there. -/
def unsigned? (anyBase : Bool) (cs : List Char) : Option (Nat × List Char) :=
  let based : Option (Nat × List Char) :=
    match anyBase, cs with
    | true, '0' :: 'x' :: c :: rest | true, '0' :: 'X' :: c :: rest =>
      (digit? 16 c).map fun d => digits 16 d rest
    | _, _ => none
  match based, cs with
  | some r, _ => some r
  | none, '0' :: rest => some (digits (if anyBase then 8 else 10) 0 rest)
  | none, c :: rest => (digit? 10 c).map fun d => digits 10 d rest
  | none, [] => none

/-- Takes a sign; the answer says whether it is a minus. -/
def signed : List Char → Bool × List Char
  | '-' :: rest => (true, rest)
  | '+' :: rest => (false, rest)
  | cs => (false, cs)

/-- The greatest number of the shell. -/
def maxNumber : Nat := Nat.pow 2 63 - 1

/-- A number of this size, if it has 64 bits. -/
def sized? (negative : Bool) (n : Nat) : Option Int :=
  if negative then (if n ≤ maxNumber + 1 then some (-(n : Int)) else none)
  else if n ≤ maxNumber then some n
  else none

/-- The number that a text is, with a sign or not, and with spaces around it or not. -/
def number? (anyBase : Bool) (s : String) : Option Int :=
  let (negative, cs) := signed (s.toList.dropWhile isSpace)
  match unsigned? anyBase cs with
  | some (n, rest) => if rest.all isSpace then sized? negative n else none
  | none => if anyBase && s.toList.all isSpace then some 0 else none

/-- The number that a text is, if it may stand where a count or a status is asked for. -/
def count? (s : String) : Option Nat :=
  match number? false s with
  | some n => if 0 ≤ n ∧ n < Nat.pow 2 31 then some n.toNat else none
  | none => none

end RobotHost.Shell
