import RobotHost.Shell.Basic

/-!
# Commands about the place of the shell

`cd` goes to a directory, `pwd` tells where the shell is, `umask` what new files do not allow, and
`ulimit` how much a process may use.
-/

namespace RobotHost.Shell

/-- The path of a place. -/
def pathOf (p : Place) : String := "/" ++ String.intercalate "/" p

/-! ## Directories -/

/-- The path of the directory that another path leads to, for a reader: two dots take back the part
before them, whether it is a link or not. -/
def joined (path other : String) : String :=
  let root (s : String) : String :=
    if s.startsWith "//" && !s.startsWith "///" then "//" else "/"
  let start := if other.startsWith "/" then (root other, []) else (root path, path.splitOn "/")
  let parts := (start.2 ++ other.splitOn "/").foldl (fun before part =>
    if part = "" || part = "." then before
    else if part = ".." then before.dropLast
    else before ++ [part]) []
  start.1 ++ String.intercalate "/" parts

/-- Sets an exported parameter. -/
def assignExported (name value : String) : Run Unit :=
  change name (some value) fun p => { p with exported := true }

/-- Goes to a directory. Unless `physical`, the path is taken as it is written. The answer says
whether the directory was there. -/
def goTo (physical : Bool) (path : String) : Run Bool := do
  let s ← get
  let target := if physical then path else joined s.shownDirectory path
  match s.system.files.locateDirectory s.directory (gather target) with
  | .error _ => return false
  | .ok p =>
    modify fun s => { s with directory := p, hashed := .empty }
    assignExported "OLDPWD" s.shownDirectory
    let shown := if physical then spread (pathOf p) else target
    modify fun s => { s with shownDirectory := shown }
    assignExported "PWD" shown
    return true

/-- The paths at which a directory of this name is looked for, and whether they are shown. -/
def candidates (s : Shell) (path : String) : List (String × Bool) :=
  if path.startsWith "/" || path ∈ [".", ".."] || path.startsWith "./" || path.startsWith "../" then
    []
  else
    match s.value? "CDPATH" with
    | none => []
    | some dirs =>
      (dirs.splitOn ":").map fun d => if d.isEmpty then (path, false) else (d ++ "/" ++ path, true)

/-- Whether the last of two opposite options is `P`. -/
def isPhysical (options : List (Char × String)) : Bool := (options.getLast?.map Prod.fst) = some 'P'

/-- The command `cd`. -/
def changeDirectory (args : List String) : Run Nat := do
  let (options, args) ← takeLetters "LP" args
  let s ← get
  let (path, isOld) :=
    match args with
    | [] => ((s.value? "HOME").getD "", false)
    | "-" :: _ => ((s.value? "OLDPWD").getD "", true)
    | path :: _ => (path, false)
  let found := (s.candidates (if path.isEmpty then "." else path)).find? fun c =>
    (s.system.files.locateDirectory s.directory (gather c.1)).isOk
  let (target, isShown) := found.getD (if path.isEmpty then "." else path, false)
  if !(← goTo (isPhysical options) target) then fail ("can't cd to " ++ path)
  if isOld || isShown then print ((← get).shownDirectory ++ "\n")
  return 0

/-- The command `pwd`. -/
def printDirectory (args : List String) : Run Nat := do
  let (options, _) ← takeLetters "LP" args
  let s ← get
  print ((if isPhysical options then spread (pathOf s.directory) else s.shownDirectory) ++ "\n")
  return 0

/-! ## New files -/

/-- What three bits allow, in letters. -/
def modeLetters (n : Nat) : String :=
  (if n.testBit 2 then "r" else "") ++ (if n.testBit 1 then "w" else "") ++
    (if n.testBit 0 then "x" else "")

/-- What is allowed to those whom the letters name: each has three bits of its own. -/
def audience (letters : List Char) : Nat :=
  if letters.isEmpty || letters.contains 'a' then 0o111
  else
    (if letters.contains 'u' then 0o100 else 0) ||| (if letters.contains 'g' then 0o010 else 0) |||
      (if letters.contains 'o' then 0o001 else 0)

/-- The bits that letters stand for, where `before` was allowed. -/
def permissions (before : Nat) (letters : List Char) : Nat :=
  letters.foldl (fun bits c =>
    bits |||
      match c with
      | 'r' => 4
      | 'w' => 2
      | 'x' => 1
      | 'u' => before / 64 % 8
      | 'g' => before / 8 % 8
      | 'o' => before % 8
      | 'X' => if before &&& 0o111 = 0 then 0 else 1
      | _ => 0) 0

/-- All bits of a mode. -/
def allBits : Nat := 0o777

/-- Reads changes of what is allowed: for whom, a sign, and what. -/
def readMode (before allowed who : Nat) : (fuel : Nat) → List Char → Option Nat
  | 0, _ => none
  | fuel + 1, cs =>
    let letters := cs.takeWhile fun c => c ∈ ['a', 'u', 'g', 'o']
    let who :=
      if letters.isEmpty && who ≠ 0 then who
      else audience letters ||| (if letters.isEmpty then 0 else who)
    match cs.drop letters.length with
    | [] => some allowed
    | sign :: rest =>
      let what := rest.takeWhile fun c => c ∈ ['r', 'w', 'x', 'u', 'g', 'o', 'X', 's']
      let bits := permissions before what * who
      let rest := rest.drop what.length
      let allowed? : Option Nat :=
        match sign with
        | '-' => some (allowed &&& (allBits - bits))
        | '=' => some (bits ||| (allowed &&& (allBits - who * 7)))
        | '+' => some (allowed ||| bits)
        | _ => none
      match allowed?, rest with
      | none, _ => none
      | some a, [] => some a
      | some a, ',' :: rest => if rest.isEmpty then some a else readMode before a 0 fuel rest
      | some a, c :: rest =>
        if c ∈ ['=', '+', '-'] then readMode before a who fuel (c :: rest) else none

/-- The command `umask`. -/
def changeMask (args : List String) : Run Nat := do
  let (options, args) ← takeLetters "S" args
  let mask := (← get).mask
  match args with
  | [] =>
    let allowed := allBits - mask
    if options.isEmpty then
      let digits := String.ofList (Nat.toDigits 8 mask)
      print ("".pushn '0' (4 - digits.length) ++ digits ++ "\n")
    else
      print ("u=" ++ modeLetters (allowed / 64) ++ ",g=" ++ modeLetters (allowed / 8 % 8) ++ ",o=" ++
        modeLetters (allowed % 8) ++ "\n")
    return 0
  | mode :: _ =>
    if mode.toList.head?.any Char.isDigit then
      if !mode.toList.all fun c => (digit? 8 c).isSome then fail ("Illegal number: " ++ mode)
      modify fun s => { s with mask := (digits 8 0 mode.toList).1 % (allBits + 1) }
    else
      let before := allBits - mask
      match readMode before before 0 (mode.length + 1) mode.toList with
      | some allowed => modify fun s => { s with mask := allBits - allowed % (allBits + 1) }
      | none => fail ("Illegal mode: " ++ mode)
    return 0

/-! ## Limits -/

/-- What is limited, with its letter, the unit in which it is counted, and what is usual. -/
def limitTable : List (Char × String × Option Nat) :=
  [('t', "time(seconds)", none), ('f', "file(blocks)", none), ('d', "data(kbytes)", none),
    ('s', "stack(kbytes)", some 8192), ('c', "coredump(blocks)", some 0),
    ('m', "memory(kbytes)", none), ('l', "locked memory(kbytes)", some 8192),
    ('p', "process", none), ('n', "nofiles", some 1048576), ('v', "vmemory(kbytes)", none),
    ('w', "locks", none), ('r', "rtprio", some 0)]

def limitText (limit : Option Nat) : String := (limit.map toString).getD "unlimited"

/-- The lower and the upper limit with this letter. -/
def limitsOf (s : Shell) (c : Char) : Option Nat × Option Nat :=
  match s.limits.lookup c with
  | some l => l
  | none =>
    let usual := ((limitTable.lookup c).bind Prod.snd)
    (usual, if c = 's' then none else usual)

/-- Whether a limit is within another. -/
def isWithin : Option Nat → Option Nat → Bool
  | _, none => true
  | none, some _ => false
  | some a, some b => a ≤ b

/-- The command `ulimit`. -/
def changeLimit (args : List String) : Run Nat := do
  let (options, args) ← takeLetters "HSatfdscmlpnvwr" args
  let letters := options.map Prod.fst
  let s ← get
  let sides := letters.filter fun c => c = 'H' || c = 'S'
  let lower := sides.isEmpty || sides.contains 'S'
  let upper := sides.isEmpty || sides.contains 'H'
  let shown (c : Char) : String :=
    limitText (if lower then (s.limitsOf c).1 else (s.limitsOf c).2) ++ "\n"
  let what := ((letters.filter fun c => c ∉ ['H', 'S', 'a']).getLast?).getD 'f'
  match args, letters.contains 'a' with
  | [], true =>
    limitTable.forM fun (c, title, _) =>
      print (title ++ "".pushn ' ' (20 - title.length) ++ " " ++ shown c)
    return 0
  | [], false =>
    print (shown what)
    return 0
  | [text], false =>
    let value ←
      if text = "unlimited" then pure none
      else if text.toList.all Char.isDigit then pure (some (digits 10 0 text.toList).1)
      else fail "bad number"
    let (low, high) := s.limitsOf what
    let low := if lower then value else low
    let high' := if upper then value else high
    if !isWithin low high' || !isWithin high' high then
      fail "error setting limit (Operation not permitted)"
    set { s with limits := (what, low, high') :: s.limits.filter fun l => l.1 ≠ what }
    return 0
  | _, _ => fail "too many arguments"

end RobotHost.Shell
