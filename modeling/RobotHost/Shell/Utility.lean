import RobotHost.Decimal.Literal
import RobotHost.Shell.Bytes

/-!
# Utilities

What programs other than shells make of their arguments.
-/

namespace RobotHost.Shell

/-- What is left of arguments without options; there is nothing to do if one of `answered` is among
them, and no such list if another option is. -/
def operands? (answered : List String) : (args : List String) → Except Nat (List String)
  | [] => .ok []
  | "--" :: rest => .ok rest
  | arg :: rest =>
    if arg.startsWith "--" then
      .error (if answered.any fun a => a.startsWith arg then 0 else 1)
    else if arg.startsWith "-" && arg ≠ "-" then .error 1
    else (operands? answered rest).map (arg :: ·)

/-! ## Waiting -/

/-- How many seconds a unit has. -/
def secondsOf? : List Char → Option Float
  | [] | ['s'] => some 1.0
  | ['m'] => some 60.0
  | ['h'] => some 3600.0
  | ['d'] => some 86400.0
  | _ => none

/-- The longest time that is waited, in seconds. -/
def longestWait : Float := 1.0e9

/-- How long a text says to wait, in billionths of a second: a number that is not negative and, if
any, the letter of a unit. -/
def duration? (s : String) : Option Nat := do
  let l ← Decimal.literal? (s.toList.dropWhile isSpace)
  let unit ← secondsOf? l.rest
  if 0.0 ≤ l.value then
    let seconds := l.value * unit
    let seconds := if longestWait < seconds then longestWait else seconds
    some (seconds * 1.0e9).toUInt64.toNat
  else none

/-- How `sleep` ends: with how long it waits, or at once with a status. -/
def sleepTime (args : List String) : Except Nat Nat := do
  let texts ← operands? ["--help", "--version"] args
  match texts.mapM duration? with
  | some (t :: ts) => return ts.foldl (· + ·) t
  | _ => throw 1

end RobotHost.Shell
