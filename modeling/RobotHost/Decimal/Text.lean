import RobotHost.Decimal.Binary64
import RobotHost.Decimal.Shortest

/-!
# Texts of binary64 values

A finite value is written with its shortest digits: positionally from `10^-5` up to below `10^16`,
and with a signed exponent otherwise. The text always has a fraction or an exponent, so that it
never reads as an integer.
-/

namespace RobotHost.Decimal

/-- Whether a number `0.d₁d₂… · 10^point` is written without an exponent. -/
def isPositional (point : Int) : Bool := -5 < point && point ≤ 16

def zeros (n : Nat) : String := String.ofList (List.replicate n '0')

/-- An exponent with its sign. -/
def exponentText (n : Int) : String := if n < 0 then toString n else "+" ++ toString n

/-- Writes `digits · 10^exponent`. -/
def Scientific.render (s : Scientific) : String :=
  let ds := Nat.toDigits 10 s.digits
  let point : Int := ds.length + s.exponent
  if isPositional point then
    if 0 ≤ s.exponent then String.ofList ds ++ zeros s.exponent.toNat ++ ".0"
    else if 0 < point then
      String.ofList (ds.take point.toNat) ++ "." ++ String.ofList (ds.drop point.toNat)
    else "0." ++ zeros (-point).toNat ++ String.ofList ds
  else
    let mantissa :=
      match ds with
      | [d] => String.singleton d
      | d :: rest => String.singleton d ++ "." ++ String.ofList rest
      | [] => ""
    mantissa ++ "e" ++ exponentText (point - 1)

/-- Writes a finite value. -/
def render (x : Float) : String :=
  let b := Binary64.ofFloat x
  let sign := if b.negative then "-" else ""
  if b.mantissa = 0 then sign ++ "0.0"
  else sign ++ (shortest b.mantissa b.exponent).render

end RobotHost.Decimal
