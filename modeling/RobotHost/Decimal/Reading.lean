/-!
# Reading decimals into binary64 values

Two readings of `digits · 10^exponent` are used. `correct` rounds the exact value once. `scaled`
first keeps as many digits as fit in 64 bits, rounds those to a binary64 value, and then
multiplies or divides it by a power of ten; it differs from `correct` in the last bit at times, and
has no value where the result is too large.
-/

namespace RobotHost.Decimal

/-- The digits of a decimal number: before the point, after the point, and the exponent. -/
structure Digits where
  whole : List Nat
  fraction : List Nat
  exponent : Int

/-- The number a list of decimal digits writes. -/
def ofDigits (digits : List Nat) : Nat := digits.foldl (fun n d => 10 * n + d) 0

/-- Appends digits to a number while the result fits in 64 bits; the digits left over follow. -/
def absorb (n : Nat) : List Nat → Nat × List Nat
  | [] => (n, [])
  | d :: rest => if 10 * n + d < Nat.pow 2 64 then absorb (10 * n + d) rest else (n, d :: rest)

/-- `10^n` as a binary64 value. -/
def powerOfTen (n : Nat) : Float := Float.ofScientific 1 false n

/-- The largest power of ten that is a binary64 value. -/
def largestPower : Nat := 308

/-- Divides by `10^n` in steps of at most `10^308`; three steps bring every 64-bit number to zero. -/
def divideByPower : Nat → Float → Nat → Float
  | 0, _, _ => 0.0
  | steps + 1, x, n =>
    if n ≤ largestPower then x / powerOfTen n
    else divideByPower steps (x / powerOfTen largestPower) (n - largestPower)

/-- `n · 10^e`, rounded after each step; no value if a step overflows. -/
def scale (n : Nat) (e : Int) : Option Float :=
  let x := Float.ofNat n
  if e < 0 then some (divideByPower 3 x (-e).toNat)
  else if e.toNat ≤ largestPower then
    let y := x * powerOfTen e.toNat
    if y.isInf then none else some y
  else if n = 0 then some 0.0
  else none

/-- The reading that keeps 64 bits of digits and scales them. -/
def Digits.scaled (d : Digits) : Option Float :=
  let (n, wholeRest) := absorb 0 d.whole
  let (n, fractionRest) := absorb n d.fraction
  scale n (wholeRest.length - (d.fraction.length - fractionRest.length : Nat) + d.exponent)

/-- The reading that rounds once. A value of `10^309` or more is infinite and one below `10^-330` is
zero, whatever its digits. -/
def Digits.correct (d : Digits) : Float :=
  let digits := d.whole ++ d.fraction
  let n := ofDigits digits
  let e := d.exponent - d.fraction.length
  if n = 0 ∨ e + digits.length < -330 then 0.0
  else if 309 ≤ e then 1.0 / 0.0
  else Float.ofScientific n (e < 0) e.natAbs

end RobotHost.Decimal
