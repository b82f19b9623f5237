/-!
# Shortest decimals of binary fractions

A positive binary64 value is `m · 2^q` with `0 < m < 2^53`. The reals that round to it form an
interval around it, which holds its ends iff `m` is even. `shortest m q` is the point of the
coarsest decimal grid `10^k · ℤ` that meets this interval; of two such points the nearer, and of
two equally near the even one.

All steps are exact: the value and its interval are scaled by a common denominator, so that every
comparison is one of natural numbers.
-/

namespace RobotHost.Decimal

/-- A positive decimal `digits · 10^exponent`. -/
structure Scientific where
  digits : Nat
  exponent : Int
deriving DecidableEq, Repr

/-- A value with the interval of the reals that round to it, over the common denominator `unit`. -/
structure Rounding where
  low : Nat
  value : Nat
  high : Nat
  unit : Nat
  closed : Bool

/-- The smallest exponent of a binary64 value `m · 2^q`. -/
def leastExponent : Int := -1074

/-- The interval of `m · 2^q`. Below a power of two the neighbour is only half as far away. -/
def Rounding.ofBinary (m : Nat) (q : Int) : Rounding :=
  let below := if m = Nat.pow 2 52 ∧ leastExponent < q then 1 else 2
  let up := Nat.pow 2 (q - 2).toNat
  { low := (4 * m - below) * up
    value := 4 * m * up
    high := (4 * m + 2) * up
    unit := Nat.pow 2 (2 - q).toNat
    closed := m % 2 = 0 }

/-- The same interval with the grid `10^k · ℤ` moved onto the multiples of `unit`. -/
def Rounding.scale (r : Rounding) (k : Int) : Rounding :=
  let up := Nat.pow 10 (-k).toNat
  { r with
    low := r.low * up
    value := r.value * up
    high := r.high * up
    unit := r.unit * Nat.pow 10 k.toNat }

/-- Whether the interval holds the point `c · unit`. -/
def Rounding.holds (r : Rounding) (c : Nat) : Bool :=
  if r.closed then r.low ≤ c * r.unit ∧ c * r.unit ≤ r.high
  else r.low < c * r.unit ∧ c * r.unit < r.high

/-- The multiple of `unit` in the interval that is nearest to the value, if one of the value's two
neighbours on this grid lies in the interval. -/
def Rounding.nearest? (r : Rounding) : Option Nat :=
  let c := r.value / r.unit
  match r.holds c, r.holds (c + 1) with
  | true, true =>
    let down := r.value - c * r.unit
    let up := (c + 1) * r.unit - r.value
    some (if down < up ∨ (down = up ∧ c % 2 = 0) then c else c + 1)
  | true, false => some c
  | false, true => some (c + 1)
  | false, false => none

/-- The first of `count` grids, from `10^k` downwards, that has a point in the interval. -/
def Rounding.coarsest (r : Rounding) : Nat → Int → Scientific
  | 0, k => ⟨r.value, k⟩
  | count + 1, k =>
    match (r.scale k).nearest? with
    | some c => ⟨c, k⟩
    | none => r.coarsest count (k - 1)

/-- The shortest decimal that rounds to `m · 2^q`. No binary64 value reaches `10^309`, and the
finest grid that is ever needed is `10^-324`. -/
def shortest (m : Nat) (q : Int) : Scientific :=
  (Rounding.ofBinary m q).coarsest 660 309

end RobotHost.Decimal
