import RobotHost.Shell.Number

/-!
# Signals

What one process can tell another. A signal that is not trapped ends a process, or does nothing. The
end of the shell has a number among them.
-/

namespace RobotHost.Shell

namespace Signal

/-- The names of signals, by number. -/
def names : List String :=
  ["EXIT", "HUP", "INT", "QUIT", "ILL", "TRAP", "ABRT", "BUS", "FPE", "KILL", "USR1", "SEGV",
    "USR2", "PIPE", "ALRM", "TERM", "16", "CHLD", "CONT", "STOP", "TSTP", "TTIN", "TTOU", "URG",
    "XCPU", "XFSZ", "VTALRM", "PROF", "WINCH", "IO", "PWR", "SYS", "32", "33", "RTMIN"] ++
    (List.range 15).map (fun n => "RTMIN+" ++ toString (n + 1)) ++
    (List.range 14).reverse.map (fun n => "RTMAX-" ++ toString (n + 1)) ++ ["RTMAX"]

def count : Nat := 65

def name (n : Nat) : String := names.getD n ""

def terminate : Nat := 15

/-- A signal that cannot be trapped. -/
def kill : Nat := 9

def pipe : Nat := 13

def interrupt : Nat := 2

/-- Whether a signal that is not trapped does nothing. -/
def isIdle (n : Nat) : Bool := n ∈ [0, 17, 18, 19, 20, 21, 22, 23, 28]

/-- The number that a text writes. -/
def ofNumber? (s : String) : Option Nat :=
  if s.isEmpty || !s.toList.all Char.isDigit then none
  else
    let n := (digits 10 0 s.toList).1
    if n < count then some n else none

/-- The signal that a text names, by number or by a name from number `least` on. -/
def ofString? (least : Nat) (s : String) : Option Nat :=
  match ofNumber? s with
  | some n => some n
  | none => ((names.drop least).findIdx? (· = s.toUpper)).map (· + least)

/-- What is said of a process that a signal ended. -/
def farewell (n : Nat) : String :=
  match n with
  | 1 => "Hangup"
  | 3 => "Quit"
  | 4 => "Illegal instruction"
  | 5 => "Trace/breakpoint trap"
  | 6 => "Aborted"
  | 7 => "Bus error"
  | 8 => "Floating point exception"
  | 9 => "Killed"
  | 10 => "User defined signal 1"
  | 11 => "Segmentation fault"
  | 12 => "User defined signal 2"
  | 14 => "Alarm clock"
  | 15 => "Terminated"
  | _ => "Signal " ++ toString n

end Signal

/-- How a process ends. -/
inductive Ending where
  | exited (code : Nat)
  | killed (signal : Nat)
deriving DecidableEq, Repr

/-- The exit status that a shell makes of the end of a process. -/
def Ending.status : Ending → Nat
  | exited code => code % 256
  | killed signal => 128 + signal

end RobotHost.Shell
