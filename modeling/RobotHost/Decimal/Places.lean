import RobotHost.Decimal.Binary64

/-!
# Decimals with a number of places

A binary64 value `m · 2^q` is rounded to so many decimal places, or to so many digits; of two
decimals that are equally near, the even one is taken. All steps are exact.
-/

namespace RobotHost.Decimal

/-- A quotient rounded to the nearest whole number; a half goes to the even neighbour. -/
def roundDiv (num den : Nat) : Nat :=
  let low := num / den
  let twice := 2 * (num % den)
  if twice < den then low
  else if den < twice then low + 1
  else if low % 2 = 0 then low
  else low + 1

/-- A value as a quotient. -/
structure Quotient where
  num : Nat
  den : Nat

def Quotient.ofBinary (m : Nat) (q : Int) : Quotient := ⟨m * Nat.pow 2 q.toNat, Nat.pow 2 (-q).toNat⟩

/-- The value times a power of ten, rounded. -/
def Quotient.scaled (v : Quotient) (power : Int) : Nat :=
  roundDiv (v.num * Nat.pow 10 power.toNat) (v.den * Nat.pow 10 (-power).toNat)

/-- How many places a value below one has before its first digit, if they are at most so many. -/
def Quotient.leadingPlaces (v : Quotient) : (limit : Nat) → (power : Nat) → Nat
  | 0, power => power
  | limit + 1, power =>
    if v.den ≤ v.num * Nat.pow 10 power then power else v.leadingPlaces limit (power + 1)

/-- The power of ten of the first digit of a positive value. -/
def Quotient.order (v : Quotient) : Int :=
  if v.den ≤ v.num then ((Nat.toDigits 10 (v.num / v.den)).length : Int) - 1
  else -(v.leadingPlaces 400 1 : Int)

/-- A value with one digit before the point and so many places: its digits, and the power of ten. -/
def Quotient.scientific (v : Quotient) (places : Nat) : Nat × Int :=
  if v.num = 0 then (0, 0)
  else
    let order := v.order
    let digits := v.scaled (places - order)
    if digits = Nat.pow 10 (places + 1) then (digits / 10, order + 1) else (digits, order)

/-- Puts a point before the last places of some digits. -/
def pointed (keepPoint : Bool) (places digits : Nat) : String :=
  let text := Nat.toDigits 10 digits
  let text := List.replicate (places + 1 - text.length) '0' ++ text
  let whole := text.take (text.length - places)
  let point := if places = 0 && !keepPoint then [] else ['.']
  String.ofList (whole ++ point ++ text.drop whole.length)

/-- A value with so many places. -/
def Quotient.fixedText (v : Quotient) (keepPoint : Bool) (places : Nat) : String :=
  pointed keepPoint places (v.scaled places)

/-- An exponent with its sign and at least two digits. -/
def signedExponent (e : Int) : String :=
  let digits := toString e.natAbs
  (if e < 0 then "-" else "+") ++ (if digits.length < 2 then "0" else "") ++ digits

/-- A value with one digit before the point, so many places and an exponent. -/
def Quotient.scientificText (v : Quotient) (keepPoint : Bool) (places : Nat) : String :=
  let (digits, e) := v.scientific places
  pointed keepPoint places digits ++ "e" ++ signedExponent e

/-- A decimal without zeros at the end of its places. -/
def withoutTrailingZeros (text : String) : String :=
  let cs := text.toList
  let mantissa := cs.takeWhile (· ≠ 'e')
  let mantissa :=
    if mantissa.contains '.' then
      let kept := mantissa.reverse.dropWhile (· = '0')
      (kept.dropWhile (· = '.')).reverse
    else mantissa
  String.ofList (mantissa ++ cs.dropWhile (· ≠ 'e'))

/-- A value with so many digits: positionally unless it is small or has more digits before the
point. -/
def Quotient.generalText (v : Quotient) (keepZeros : Bool) (count : Nat) : String :=
  let count := max count 1
  let (_, e) := v.scientific (count - 1)
  let text :=
    if -5 < e && e < count then v.fixedText keepZeros ((count : Int) - 1 - e).toNat
    else v.scientificText keepZeros (count - 1)
  if keepZeros then text else withoutTrailingZeros text

/-- A value in base sixteen with one digit before the point. -/
def hexadecimalText (b : Binary64) (keepPoint : Bool) (places : Option Nat) : String :=
  let lead := if b.biased = 0 then 0 else 1
  let power : Int := if b.mantissa = 0 then 0 else if b.biased = 0 then -1022 else b.biased - 1023
  let count := places.getD 13
  let digits :=
    if count < 13 then roundDiv (lead * Nat.pow 2 52 + b.fraction) (Nat.pow 16 (13 - count))
    else (lead * Nat.pow 2 52 + b.fraction) * Nat.pow 16 (count - 13)
  let text := Nat.toDigits 16 digits
  let text := List.replicate (count + 1 - text.length) '0' ++ text
  let whole := text.take (text.length - count)
  let fraction := text.drop whole.length
  let fraction :=
    if places.isSome then fraction else (fraction.reverse.dropWhile (· = '0')).reverse
  let point := if fraction.isEmpty && !keepPoint then [] else ['.']
  let sign := if power < 0 then "-" else "+"
  "0x" ++ String.ofList (whole ++ point ++ fraction) ++ "p" ++ sign ++ toString power.natAbs

end RobotHost.Decimal
