import RobotHost.Shell.Basic

/-!
# Commands about signals and jobs

`trap` says what is done when a signal comes, `kill` sends signals, `wait` waits for jobs and `jobs`
lists them. A job is over at a time that is known when it begins; waiting for it moves the time on.
-/

namespace RobotHost.Shell

/-! ## Traps -/

/-- Sets what is done when signals come. -/
def trapAll (action : Option String) : List String → Run Nat
  | [] => return 0
  | name :: rest => do
    match Signal.ofString? 0 name with
    | none =>
      discard (write 2 ("trap: " ++ name ++ ": bad trap\n"))
      return 1
    | some n =>
      modify fun s =>
        let others := s.traps.filter fun t => t.1 ≠ n
        { s with traps := (action.map fun a => (n, a)).toList ++ others }
      trapAll action rest

/-- The command `trap`. -/
def trap (args : List String) : Run Nat := do
  let (_, args) ← takeLetters "" args
  match args with
  | [] =>
    let s ← get
    for n in List.range Signal.count do
      if let some action := s.traps.lookup n then
        print ("trap -- " ++ inQuotes action ++ " " ++ Signal.name n ++ "\n")
    return 0
  | [_] => trapAll none args
  | first :: rest =>
    if (Signal.ofNumber? first).isSome then trapAll none args
    else trapAll (if first = "-" then none else some first) rest

/-- Takes a signal. -/
def receive (n : Nat) : Run Unit := do
  let s ← get
  match (if n = Signal.kill then none else s.traps.lookup n) with
  | some "" => return
  | some _ => set { s with pending := s.pending.filter (· ≠ n) ++ [n] }
  | none => if Signal.isIdle n then return else throw (.killed n)

/-- Whether something is done when a signal comes. -/
def heeds (s : Shell) (n : Nat) : Bool :=
  match (if n = Signal.kill then none else s.traps.lookup n) with
  | some action => !action.isEmpty
  | none => !Signal.isIdle n

/-! ## Jobs -/

/-- Whether a job goes on at a time. -/
def Job.isRunning (j : Job) (time : Nat) : Bool := time ≤ j.time

/-- A job that gets a signal. -/
def Job.receive (j : Job) (sent : Sent) : Job :=
  if !j.isRunning sent.time then j
  else
    let received := j.received ++ [sent]
    let (time, ending) := j.endsWith received
    { j with received, time, ending }

/-- Gives jobs the signals that were sent to them. -/
def deliver : Run Unit :=
  modify fun s =>
    s.system.signals.foldl (fun s sent =>
      match s.jobs.find? fun j => j.process = sent.process with
      | none => { s with system := { s.system with signals := s.system.signals ++ [sent] } }
      | some j =>
        let j := j.receive sent
        { s with
          jobs := s.jobs.map fun k => if k.process = j.process then j else k
          system := s.system.note j.process j.time })
      { s with system := { s.system with signals := [] } }

/-- Takes the next signal that came to the shell up to a time, if it is `wanted`. -/
def next? (wanted : Nat → Bool) (time : Nat) : Run (Option Sent) := do
  let s ← get
  let isNext (sent : Sent) : Bool :=
    sent.process = s.process && sent.time ≤ time && wanted sent.signal
  match (s.system.signals.filter isNext).mergeSort fun a b => a.time ≤ b.time with
  | [] => return none
  | sent :: _ =>
    let (same, others) := s.system.signals.partition fun o =>
      o.process = sent.process && o.signal = sent.signal && o.time = sent.time
    set { s with system := { s.system with signals := same.drop 1 ++ others } }
    return some sent

/-- Takes signals that came, up to this many. -/
def receiveSome : (count : Nat) → Run Unit
  | 0 => return
  | count + 1 => do
    match ← next? (fun _ => true) (← get).system.time with
    | none => return
    | some sent =>
      try receive sent.signal
      catch j =>
        modify fun s => { s with system := { s.system with time := sent.time } }
        throw j
      receiveSome count

/-- Takes the signals that came. -/
def receiveAll : Run Unit := do
  if !(← get).system.signals.isEmpty then
    deliver
    receiveSome (← get).system.signals.length

/-- The number for a new job: the least that is free. A job is over for good when it was waited for
and ended. -/
def freeNumber (s : Shell) : Nat :=
  let taken := s.jobs.filter fun j => !j.isWaited || j.isRunning s.system.time
  let isFree (n : Nat) : Bool := taken.all fun j => j.number ≠ n
  ((List.range (taken.length + 1)).map (· + 1)).find? isFree |>.getD 1

/-- The job that an argument names. -/
def jobOf (arg : String) : Run Job := do
  let s ← get
  let noSuch := "No such job: " ++ arg
  let pick (j : Option Job) (reason : String) : Run Job :=
    match j with
    | some j => pure j
    | none => fail reason
  match arg.toList with
  | ['%'] | ['%', '+'] | ['%', '%'] => pick s.jobs.head? "No current job"
  | ['%', '-'] => pick s.jobs[1]? "No previous job"
  | '%' :: n =>
    if !n.isEmpty && n.all Char.isDigit then
      pick (s.jobs.find? fun j => j.number = (digits 10 0 n).1) noSuch
    else fail noSuch
  | _ => fail noSuch

/-- Says how a process ended that a signal ended. -/
def sayEnding (ending : Ending) : Run Unit :=
  match ending with
  | .killed n =>
    if n = Signal.interrupt || n = Signal.pipe then return
    else discard (write 2 (Signal.farewell n ++ "\n"))
  | .exited _ => return

/-- Waits until a time, or until a signal comes for which something is done. The answer is that
signal. -/
def waitUntil (time : Nat) : Run (Option Nat) := do
  let s ← get
  let come (time : Nat) : Run Unit :=
    modify fun s => { s with system := { s.system with time := max s.system.time time } }
  match ← next? s.heeds time with
  | none =>
    come time
    return none
  | some sent =>
    come sent.time
    receive sent.signal
    return some sent.signal

/-- The status of a command that a signal interrupts. -/
def interruptedStatus (n : Nat) : Nat := 128 + n

/-- Waits for a job. The answer is its exit status, or the signal that interrupted. -/
def waitFor (j : Job) : Run (Except Nat Nat) := do
  if j.isRunning (← get).system.time then
    if let some n ← waitUntil (j.time + 1) then return .error n
  sayEnding j.ending
  modify fun s =>
    { s with
      jobs := s.jobs.map fun k => if k.process = j.process then { k with isWaited := true } else k }
  return .ok j.ending.status

/-- Waits for what arguments name, jobs or processes. -/
def waitForAll (status : Nat) : List String → Run Nat
  | [] => return status
  | arg :: rest => do
    let job? ←
      if arg.startsWith "%" then some <$> jobOf arg
      else
        let n ← numberOf arg
        pure ((← get).jobs.find? fun j => j.process = n)
    match job? with
    | none => waitForAll status rest
    | some j =>
      match ← waitFor j with
      | .ok status => waitForAll status rest
      | .error n => return interruptedStatus n

/-- The command `wait`. -/
def wait (args : List String) : Run Nat := do
  let (_, args) ← takeLetters "" args
  if !args.isEmpty then return ← waitForAll 127 args
  let s ← get
  let last := s.jobs.foldl (fun t j => max t j.time) 0
  if s.system.time ≤ last then
    if let some n ← waitUntil (last + 1) then return interruptedStatus n
  modify fun s => { s with jobs := s.jobs.map fun j => { j with isWaited := true } }
  return 0

/-- How a job is described. -/
def Job.text (j : Job) (time : Nat) : String :=
  if j.isRunning time then "Running"
  else
    match j.ending with
    | .exited 0 => "Done"
    | .exited code => "Done(" ++ toString code ++ ")"
    | .killed n => Signal.farewell n

/-- Prints a job, and forgets it if it is over. -/
def showJob (letter : Option Char) (j : Job) : Run Unit := do
  let s ← get
  if letter = some 'p' then print (toString j.process ++ "\n")
  else
    let sign :=
      if (s.jobs.head?.map Job.process) = some j.process then "+"
      else if (s.jobs[1]?.map Job.process) = some j.process then "-"
      else " "
    let process := if letter = some 'l' then toString j.process ++ " " else ""
    let line := "[" ++ toString j.number ++ "] " ++ sign ++ " " ++ process ++ j.text s.system.time
    print (line ++ "".pushn ' ' (33 - line.length) ++ "\n")
    if !j.isRunning s.system.time then
      modify fun s => { s with jobs := s.jobs.filter fun k => k.process ≠ j.process }

/-- The command `jobs`. -/
def showJobs (args : List String) : Run Nat := do
  let (options, args) ← takeLetters "lp" args
  let letter := options.getLast?.map Prod.fst
  if args.isEmpty then (← get).jobs.forM (showJob letter)
  else
    for arg in args do
      showJob letter (← jobOf arg)
  return 0

/-- The commands `fg` and `bg`; no job can be brought to the front. -/
def resume (args : List String) : Run Nat := do
  let (_, args) ← takeLetters "" args
  let j ← jobOf (args.head?.getD "%")
  if j.number = 0 then return 0
  fail "job (null) not created under job control"

/-! ## Sending -/

/-- Sends a signal to a process. The answer says whether there is such a process. -/
def send (process : Nat) (n : Nat) : Run Bool := do
  let s ← get
  if process = s.process then
    if n ≠ 0 then receive n
    return true
  let isThere := process = s.root || process = s.parent || s.system.runs process
  if isThere && n ≠ 0 then
    let sent : Sent := ⟨process, n, s.system.time⟩
    set { s with system := { s.system with signals := s.system.signals ++ [sent] } }
    deliver
  return isThere

/-- Sends a signal to what arguments name. Groups of processes have no names here. -/
def sendAll (n : Nat) : List String → (status : Nat) → Run Nat
  | [], status => return status
  | arg :: rest, status => do
    let isThere ←
      match arg.toList with
      | '%' :: _ =>
        discard (jobOf arg)
        pure false
      | '-' :: digits =>
        discard (numberOf (String.ofList digits))
        pure false
      | _ => send (← numberOf arg) n
    if !isThere then complain "No such process\n"
    sendAll n rest (if isThere then status else 1)

def killUsage : String :=
  "Usage: kill [-s sigspec | -signum | -sigspec] [pid | job]... or\nkill -l [exitstatus]"

/-- Lists the names of signals, or tells the one of a signal or an exit status. -/
def listSignals : List String → Run Nat
  | [] => do
    print "0\n"
    for name in Signal.names.drop 1 do
      print (name ++ "\n")
    return 0
  | arg :: _ => do
    let n ← numberOf arg
    let n := if 128 < n then n - 128 else n
    if 0 < n && n < Signal.count then
      print (Signal.name n ++ "\n")
      return 0
    else fail ("invalid signal number or exit status: " ++ arg)

/-- The command `kill`. -/
def kill (args : List String) : Run Nat := do
  let run (isList : Bool) (n : Option Nat) (targets : List String) : Run Nat :=
    if isList then
      if n.isSome then fail killUsage else listSignals targets
    else if targets.isEmpty then fail killUsage
    else sendAll (n.getD Signal.terminate) targets 0
  match args with
  | [] => fail killUsage
  | first :: rest =>
    if !first.startsWith "-" then run false none args
    else
      match Signal.ofString? 1 (String.ofList (first.toList.drop 1)) with
      | some n => run false (some n) rest
      | none =>
        let (options, targets) ← takeLetters "ls:" args
        let mut n := none
        for (c, text) in options do
          if c = 's' then
            match Signal.ofString? 1 text with
            | some m => n := some m
            | none => fail ("invalid signal number or name: " ++ text)
        run (options.any fun o => o.1 = 'l') n targets

end RobotHost.Shell
