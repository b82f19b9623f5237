import RobotHost.Shell.Invocation
import RobotHost.Shell.Process
import RobotHost.Shell.Reader

/-!
# Running commands

`Shell.runText` runs a script line by line and `Shell.run` a command; both give an exit status.
`Shell.runProgram` runs a program of the host, which may be another shell. Fuel bounds how deep
commands are nested and how often loops run.

A process of its own works on a copy of the shell, and only what it did to the host stays: to files,
to what is open, and to the time. What runs beside the shell is run when it begins; its time goes by
for itself.
-/

namespace RobotHost.Shell

/-- How a command is run. -/
structure Manner where
  /-- Its status decides what is run next; then a failure does not end the shell, whatever the
  options say. -/
  tested : Bool := false
  /-- It is the last one of its process, so that a program takes the place of the process. -/
  last : Bool := false

/-- Whether the options may end the shell when this command fails. -/
def isChecked : Command → Bool
  | .simple .. | .pipeline _ | .subshell .. | .background .. => true
  | _ => false

/-- How many functions may run within each other. -/
def maxCalls : Nat := 1000

mutual

/-- Runs a command as a process of its own that begins as `setup` says, and waits for it. -/
def fork : (fuel : Nat) → (setup : Shell → Shell) → Run Nat → Run Ending
  | 0, _, _ => giveUp
  | fuel + 1, setup, act => do
    discard claimNumber
    let before ← get
    let (process, system) := before.system.begin
    set (setup ({ before with system }.child process))
    let e ← ending fuel act
    modify fun after => { before with system := after.system }
    sayEnding e
    return e

/-- Runs a command beside the shell. -/
def startJob : (fuel : Nat) → Command → Run Unit
  | 0, _ => giveUp
  | fuel + 1, c => do
    let number ← claimNumber
    let before ← get
    let (process, system) := before.system.begin
    let (null, system) := system.addChannel { target := .null }
    let start := ({ before with system }.child process).withChannels [(0, null)]
    let act : Run Nat := do
      receiveAll
      ignoreKeyboard
      run fuel { last := true } c
    let told (signals : List Sent) : Ending × Shell :=
      let signals := system.signals ++ signals
      match (ending fuel act).run { start with system := { system with signals } } with
      | (.ok e, after) => (e, after)
      | (.error _, after) => (.exited after.status, after)
    let (e, after) := told []
    let time := after.system.time
    let endsWith (signals : List Sent) : Nat × Ending :=
      let (e, after) := told signals
      (after.system.time, e)
    set { before with
      system := { after.system with time := system.time }.note process time
      jobs := ⟨number, process, time, e, false, [], endsWith⟩ :: before.jobs
      lastJob := some process }

/-- Runs a process to its end. What is to be done at the end is done. -/
def ending : (fuel : Nat) → Run Nat → Run Ending
  | 0, _ => giveUp
  | fuel + 1, act => do
    let jump ← outcome (discard act)
    if jump matches some (.replaced _) then modify fun s => { s with traps := s.ignored }
    match jump, ← outcome receiveAll with
    | some (.killed n), _ | _, some (.killed n) => return .killed n
    | some (.replaced code), _ => return .exited code
    | jump, _ =>
      modify fun s =>
        { s with
          status := if jump = some .leave then s.savedStatus.getD s.status else s.status
          savedStatus := none, skip := .nothing, loops := 0 }
      let s ← get
      match s.traps.lookup 0 with
      | none => return .exited s.status
      | some text =>
        let traps := s.traps.filter fun t => t.1 ≠ 0
        set { s with traps, savedStatus := some s.status }
        match ← outcome (discard (runText fuel {} { rest := text.toList } 0)) with
        | none | some .leave => return .exited ((← get).savedStatus.getD s.status)
        | some (.killed n) => return .killed n
        | some (.replaced code) => return .exited code
        | some .fault | some .finish => return .exited (← get).status

/-- Runs a command as a process of its own and takes what it prints, without the line ends behind
it. -/
def outputOf : (fuel : Nat) → Option Command → Run String
  | 0, _ => giveUp
  | _ + 1, none => return ""
  | fuel + 1, some c => do
    let (reader, writer) ← makePipe
    let e ← fork fuel (withChannels [(1, writer)]) (run fuel { last := true } c)
    modify fun s => { s with outputStatus := e.status }
    let text := (((← get).system.ahead? reader).getD []).filter (· ≠ '\x00')
    return String.ofList (text.reverse.dropWhile (· = '\n')).reverse

/-- Runs the stages of a pipeline, each on what the one before it wrote. All begin at once. -/
def runStages : (fuel : Nat) → (tested : Bool) → (input : Option Nat) → List Command → Run Ending
  | 0, _, _, _ => giveUp
  | _ + 1, _, _, [] => return .exited 0
  | fuel + 1, tested, input, c :: rest => do
    let time := (← get).system.time
    let act := run fuel { tested, last := true } c
    let led := (input.map (0, ·)).toList
    match rest with
    | [] => fork fuel (withChannels led) act
    | _ =>
      let (reader, writer) ← makePipe
      discard (fork fuel (withChannels ((1, writer) :: led)) act)
      let ended := (← get).system.time
      modify fun s => { s with system := { s.system with time } }
      let e ← runStages fuel tested (some reader) rest
      modify fun s => { s with system := { s.system with time := max s.system.time ended } }
      return e

/-- Does what is to be done when signals come. -/
def runTraps : (fuel : Nat) → Run Unit
  | 0 => return
  | fuel + 1 => do
    receiveAll
    let s ← get
    if !s.pending.isEmpty then
      let status := s.savedStatus.getD s.status
      set { s with savedStatus := some status, pending := [] }
      runActions fuel status (s.pending.mergeSort (· ≤ ·))
      modify fun after => { after with savedStatus := s.savedStatus }

/-- Does what is to be done for signals. Afterwards the status is as before. -/
def runActions : (fuel : Nat) → (status : Nat) → (signals : List Nat) → Run Unit
  | 0, _, _ => return
  | _ + 1, _, [] => return
  | fuel + 1, status, n :: rest => do
    if ← isSkipping then modify fun s => { s with pending := n :: rest ++ s.pending }
    else
      if let some text := (← get).traps.lookup n then
        discard (runText fuel {} { rest := text.toList } 0)
        modify fun s => if s.skip = .finish true then s else { s with status }
      runActions fuel status rest

/-- Runs the rest of a script, of which what was run before ended with `status`. -/
def runText : (fuel : Nat) → Manner → Input → (status : Nat) → Run Nat
  | 0, _, _, _ => giveUp
  | fuel + 1, m, i, status => do
    match nextLine { i with aliases := (← get).aliases } with
    | .error e =>
      atLine e.line
      fail ("Syntax error: " ++ e.message)
    | .ok (line, rest) =>
      let (status, goesOn) ←
        match line.command with
        | none =>
          runTraps fuel
          pure (status, true)
        | some c =>
          let status ← run fuel { m with last := m.last && line.isLast } c
          pure (status, !(← isSkipping))
      if goesOn && !line.isLast then runText fuel m rest status else return status

/-- Runs a command. -/
def run : (fuel : Nat) → Manner → Command → Run Nat
  | 0, _, _ => giveUp
  | fuel + 1, m, c => do
    if (← get).has .noexec then return 0
    runTraps fuel
    let checks := (← get).has .errexit && !m.tested && isChecked c
    let status ← runBody fuel m c
    modify fun s => { s with status }
    if checks && status ≠ 0 then throw .finish
    runTraps fuel
    return status

/-- Runs a command, by its kind. -/
def runBody : (fuel : Nat) → Manner → Command → Run Nat
  | 0, _, _ => giveUp
  | fuel + 1, m, c => do
    let inner : Manner := { tested := m.tested }
    match c with
    | .simple line assignments words redirects => runSimple fuel m line assignments words redirects
    | .pipeline stages => return (← runStages fuel m.tested none stages).status
    | .subshell line c redirects =>
      atLine line
      let ds ← directions (outputOf fuel) fuel redirects
      let act : Run Nat := do
        follow (outputOf fuel) fuel ds
        run fuel { m with last := true } c
      return (← fork fuel id act).status
    | .background line c =>
      atLine line
      startJob fuel c
      return 0
    | .negated c =>
      let status ← run fuel { tested := true } c
      return if ← isSkipping then status else if status = 0 then 1 else 0
    | .both a b =>
      let status ← run fuel { tested := true } a
      if status ≠ 0 || (← isSkipping) then return status else run fuel m b
    | .either a b =>
      let status ← run fuel { tested := true } a
      if status = 0 || (← isSkipping) then return status else run fuel m b
    | .sequence a b =>
      let status ← run fuel inner a
      if ← isSkipping then return status else run fuel m b
    | .redirected line c redirects =>
      atLine line
      let ds ← directions (outputOf fuel) fuel redirects
      let before ← get
      if ← followAll (outputOf fuel) fuel ds then afterwards (run fuel inner c) (undo before ds)
      else
        modify (undo before ds)
        return 2
    | .conditional test yes no =>
      let status ← run fuel { tested := true } test
      if ← isSkipping then return status
      else if status = 0 then run fuel m yes
      else
        match no with
        | some no => run fuel m no
        | none => return 0
    | .loop failing test body =>
      modify fun s => { s with loops := s.loops + 1 }
      let status ← repeated fuel inner failing test body 0
      modify fun s => { s with loops := s.loops - 1 }
      return status
    | .each line name words body =>
      atLine line
      let fields ← allFieldsOf (outputOf fuel) fuel words
      modify fun s => { s with loops := s.loops + 1 }
      let status ← forFields fuel inner name body 0 fields
      modify fun s => { s with loops := s.loops - 1 }
      return status
    | .choice line word arms =>
      atLine line
      let text ← wordText (outputOf fuel) fuel word
      runArms fuel m text.toList arms
    | .define name body =>
      modify fun s => { s with functions := s.functions.insert name body }
      return 0

/-- Runs a body as long as a test says so. -/
def repeated : (fuel : Nat) → Manner → (failing : Bool) → (test body : Command) → (status : Nat) →
    Run Nat
  | 0, _, _, _, _, _ => giveUp
  | fuel + 1, m, failing, test, body, status => do
    let tested ← run fuel { tested := true } test
    match ← passLoop with
    | .nothing =>
      if (tested = 0) = failing then return status
      let status ← run fuel m body
      match ← passLoop with
      | .nothing | .next _ => repeated fuel m failing test body status
      | _ => return status
    | .next _ => repeated fuel m failing test body status
    | .finish true => return tested
    | _ => return status

/-- Runs a body for each field. -/
def forFields : (fuel : Nat) → Manner → (name : String) → (body : Command) → (status : Nat) →
    (fields : List String) → Run Nat
  | 0, _, _, _, _, _ => giveUp
  | _ + 1, _, _, _, status, [] => return status
  | fuel + 1, m, name, body, _, field :: rest => do
    assign name field
    let status ← run fuel m body
    match ← passLoop with
    | .nothing | .next _ => forFields fuel m name body status rest
    | _ => return status

/-- Runs the first arm with a pattern that fits. -/
def runArms : (fuel : Nat) → Manner → (text : List Char) → List (List Word × Option Command) →
    Run Nat
  | 0, _, _, _ => giveUp
  | _ + 1, _, _, [] => return 0
  | fuel + 1, m, text, (patterns, body) :: rest => do
    if ← anyFits fuel text patterns then
      match body with
      | some c => run fuel m c
      | none => return 0
    else runArms fuel m text rest

/-- Whether one of several patterns fits a text; they are looked at in turn. -/
def anyFits : (fuel : Nat) → (text : List Char) → (patterns : List Word) → Run Bool
  | 0, _, _ => giveUp
  | _ + 1, _, [] => return false
  | fuel + 1, text, w :: rest => do
    if fits (← wordPattern (outputOf fuel) fuel w) text then return true else anyFits fuel text rest

/-- Runs a simple command. The order is: words, redirections, assignments, the command. -/
def runSimple : (fuel : Nat) → Manner → (line : Nat) → List (String × Word) → List Word →
    List Redirect → Run Nat
  | 0, _, _, _, _, _ => giveUp
  | fuel + 1, m, line, assignments, words, redirects => do
    modify fun s => { s with line, outputStatus := 0 }
    let i ← Invocation.ofWords (outputOf fuel) fuel words
    let depth := (← get).shadowed.length
    if i.shadows then modify fun s => { s with shadowed := [] :: s.shadowed }
    let ds ← directions (outputOf fuel) fuel redirects
    let before ← get
    if ← followAll (outputOf fuel) fuel ds then
      let act : Run Nat := do
        let texts ← assignAll fuel i assignments
        trace (before.channel? 2) (texts ++ i.fields)
        runInvocation fuel m i
      let status ←
        try act
        catch j =>
          modify (undo before ds)
          throw j
      if !i.isExec then modify (undo before ds)
      unshadow depth (← get).shadowed.length
      return status
    else
      modify (undo before ds)
      if i.special = some true then throw .fault
      unshadow depth (← get).shadowed.length
      return 2

/-- Makes the assignments before a command. The answer is how they are written. -/
def assignAll : (fuel : Nat) → Invocation → List (String × Word) → Run (List String)
  | 0, _, _ => giveUp
  | _ + 1, _, [] => return []
  | fuel + 1, i, (name, w) :: rest => do
    let value ← assignedText (outputOf fuel) fuel w
    let text := name ++ "=" ++ value
    if i.shadows then shadow true text
    else if i.isExec && 1 < i.fields.length then change name (some value) exporting
    else assign name value
    return text :: (← assignAll fuel i rest)

/-- Runs what a simple command asks for. An error in a command of the shell that is not special is
only a failure. -/
def runInvocation : (fuel : Nat) → Manner → Invocation → Run Nat
  | 0, _, _ => giveUp
  | fuel + 1, m, i => do
    match i.meaning, i.fields with
    | .function body, _ :: args => call fuel m body args
    | .own, name :: args =>
      try runOwn fuel m name args
      catch j =>
        if j = .fault && i.special ≠ some true then return (← get).status else throw j
    | .program, name :: args => runNamed fuel m i.path name args
    | _, _ => return (← get).outputStatus

/-- Runs a command of the shell. -/
def runOwn : (fuel : Nat) → Manner → (name : String) → List String → Run Nat
  | 0, _, _, _ => giveUp
  | fuel + 1, m, name, args => asOwn name do
    match name with
    | "eval" =>
      runText fuel { tested := m.tested } { rest := (String.intercalate " " args).toList } 0
    | "exec" =>
      match args with
      | [] => return 0
      | name :: args =>
        match (← get).findProgram none name with
        | .ok program =>
          throw (.replaced (← runProgram fuel program name args))
        | .error r =>
          complain (r.message name)
          modify fun s => { s with status := r.status }
          throw .finish
    | "." =>
      match (← takeLetters "" args).2 with
      | [] => return 0
      | path :: _ =>
        let path ← scriptPath path
        let text ← readScript path
        modify fun s => { s with commandName := some path }
        let status ← runText fuel {} { rest := text.toList } 0
        modify endFunction
        return status
    | _ =>
      match own? name with
      | some act => act args
      | none => return 127

/-- Calls a function. -/
def call : (fuel : Nat) → Manner → (body : Command) → List String → Run Nat
  | 0, _, _, _ => giveUp
  | fuel + 1, m, body, args => do
    let before ← get
    if maxCalls ≤ before.calls then fail "Maximum function recursion depth (1000) reached"
    set { before with
      args, calls := before.calls + 1, loops := 0, optionIndex := 1, optionPlace := none }
    let act : Run Nat := do
      discard (run fuel { tested := m.tested } body)
      return (← get).status
    afterwards act fun s =>
      { s.endFunction with
        args := before.args, calls := before.calls, loops := before.loops
        optionIndex := before.optionIndex, optionPlace := before.optionPlace }

/-- Runs the program that a name stands for, in place of the process if it is the last command and
nothing is to be done afterwards. -/
def runNamed : (fuel : Nat) → Manner → (path : Option String) → (name : String) → List String →
    Run Nat
  | 0, _, _, _, _ => giveUp
  | fuel + 1, m, path, name, args => do
    let s ← get
    match s.findProgram path name with
    | .error r =>
      complain (r.message name)
      return r.status
    | .ok program =>
      if path.isNone then remember name
      let act : Run Nat := do throw (.replaced (← runProgram fuel program name args))
      if m.last && s.traps.isEmpty then act else return (← fork fuel id act).status

/-- Runs a program in the running process. -/
def runProgram : (fuel : Nat) → (program name : String) → List String → Run Nat
  | 0, _, _, _ => giveUp
  | fuel + 1, program, name, args => do
    match program with
    | "sh" =>
      modify (·.fresh name)
      match ← ending fuel (runShell fuel args) with
      | .exited code => return code
      | .killed n => throw (.killed n)
    | "env" => runWith fuel args
    | _ => runUtility program args

/-- Runs a program with parameters that are given before its name. -/
def runWith : (fuel : Nat) → List String → Run Nat
  | 0, _ => giveUp
  | _ + 1, [] => return 0
  | fuel + 1, arg :: rest => do
    match definition arg with
    | (name, some value) =>
      setParameter name (some { value := some value, exported := true })
      runWith fuel rest
    | (_, none) =>
      match arg, rest with
      | "-", rest | "-i", rest | "--ignore-environment", rest =>
        modify fun s => { s with parameters := .empty }
        runWith fuel rest
      | "-u", name :: rest =>
        setParameter name none
        runWith fuel rest
      | "--", rest => runWith fuel rest
      | name, args =>
        if name.startsWith "-" then return 125
        match (← get).findProgram none name with
        | .ok program => runProgram fuel program name args
        | .error r => return r.status

/-- Runs a shell with these arguments. -/
def runShell : (fuel : Nat) → List String → Run Nat
  | 0, _ => giveUp
  | fuel + 1, args => do
    prepare
    let taken ← takeOptions ['c', 'l'] args.length args
    let named (args : List String) : Run Unit :=
      modify fun s => { s with name := args.head?.getD s.name, args := args.drop 1 }
    let readInput : Run Nat := do
      let text ← readAll 0
      runText fuel {} { rest := text.toList } 0
    let readsInput := (← get).has .stdin
    match taken.others.contains 'c', taken.rest with
    | true, [] => fail "-c requires an argument"
    | true, text :: args =>
      named args
      discard (runText fuel { last := !readsInput } { rest := text.toList } 0)
      if readsInput then readInput else return 0
    | false, path :: args =>
      if readsInput then
        modify fun s => { s with args := path :: args }
        readInput
      else
        let text ← readScript path
        named (path :: args)
        runText fuel {} { rest := text.toList } 0
    | false, [] => readInput

end

end RobotHost.Shell
