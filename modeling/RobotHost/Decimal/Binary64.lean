/-!
# The parts of binary64 values

A finite value is `± mantissa · 2^exponent`, read off its bits.
-/

namespace RobotHost.Decimal

/-- The three fields of a binary64 value: sign, biased exponent, fraction. -/
structure Binary64 where
  negative : Bool
  biased : Nat
  fraction : Nat

namespace Binary64

def ofFloat (x : Float) : Binary64 :=
  let bits := x.toBits.toNat
  { negative := bits / Nat.pow 2 63 = 1
    biased := bits / Nat.pow 2 52 % Nat.pow 2 11
    fraction := bits % Nat.pow 2 52 }

/-- The digits of a finite value; the smallest values have no leading one. -/
def mantissa (b : Binary64) : Nat :=
  if b.biased = 0 then b.fraction else Nat.pow 2 52 + b.fraction

/-- The power of two by which the digits of a finite value are scaled. -/
def exponent (b : Binary64) : Int := if b.biased = 0 then -1074 else b.biased - 1075

end Binary64

/-- The remainder of a finite value by a whole number, with the sign of the value. It is computed
on whole numbers and has no more digits than the value, so that nothing is rounded. -/
def remainder (x : Float) (n : Nat) : Float :=
  let b := Binary64.ofFloat x
  let size :=
    if 0 ≤ b.exponent then Float.ofNat (b.mantissa * Nat.pow 2 b.exponent.toNat % n)
    else (Float.ofNat (b.mantissa % (n * Nat.pow 2 (-b.exponent).toNat))).scaleB b.exponent
  if b.negative then -size else size

/-- The remainder of a value by a whole number, moved to the positive side; a value that is not
finite has none. -/
def positiveRemainder (x : Float) (n : Nat) : Float :=
  if x.isFinite then
    let r := remainder x n
    if r < 0.0 then r + Float.ofNat n else r
  else 0.0 / 0.0

end RobotHost.Decimal
