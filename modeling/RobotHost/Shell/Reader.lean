import RobotHost.Shell.Input

/-!
# Reading scripts

`nextLine` reads one line of a script with all commands on it, which may go on over several lines of
text; a script is read line by line, so that a mistake is not seen before the lines above it were
run, and names may get texts in between. The amount of fuel that `nextLine` begins with is more
than the longest chain of calls between two characters that are read.

A text below a line is found only after the command that asks for it was read. So a line with such
texts is read again, with the texts that were found.
-/

namespace RobotHost.Shell

/-- What ends a list of pieces, and what is special in it. -/
inductive Mode where
  /-- A word, up to a blank or an operator; a `literal` one stands for no other text. -/
  | bare (literal : Bool)
  /-- Up to a double quote, perhaps within braces. -/
  | quoted (literal inBraces : Bool)
  /-- Up to a closing brace. -/
  | braced (quoted : Bool)
  /-- A text that stands below its command, to the line that is the delimiter. -/
  | here (delimiter : Text) (stripped : Bool)
  /-- A sum, up to two closing brackets, with this many brackets open. -/
  | sum (depth : Nat)
deriving DecidableEq

namespace Mode

/-- Whether characters are quoted. -/
def quotes : Mode → Bool
  | bare _ | braced false => false
  | _ => true

/-- Whether a single quote begins a quoted text. -/
def hasSingle : Mode → Bool
  | bare _ | braced false => true
  | _ => false

/-- Whether a double quote begins a quoted text. -/
def hasDouble : Mode → Bool
  | bare _ | braced _ => true
  | _ => false

/-- Whether dollar signs and backquotes stand for themselves. -/
def isLiteral : Mode → Bool
  | bare literal | quoted literal _ => literal
  | _ => false

/-- Whether a backslash takes a character as it is; otherwise both stand for themselves. -/
def escapes (m : Mode) (c : Char) : Bool :=
  match m with
  | bare _ | braced false => true
  | here _ _ => c ∈ ['$', '`', '\\']
  | quoted _ false | sum _ => c ∈ ['$', '`', '\\', '"']
  | quoted _ true | braced true => c ∈ ['$', '`', '\\', '"', '\x7d']

/-- The mode behind a character. -/
def after (m : Mode) (c : Char) : Mode :=
  match m with
  | sum n => if c = '(' then sum (n + 1) else if c = ')' then sum (n - 1) else m
  | _ => m

/-- The mode within double quotes. -/
def inDouble (m : Mode) : Mode :=
  match m with
  | bare literal => quoted literal false
  | _ => quoted false true

end Mode

/-- Takes what ends a list of pieces, if it is there; the end of a word is left. -/
def atEnd (mode : Mode) : Reading Bool := do
  let next ← match mode with
    | .here _ _ => peek?
    | _ => peekJoined?
  match mode, next with
  | .bare _, none | .here _ _, none => return true
  | .bare _, some c => return isBlank c || isOperatorChar c
  | .quoted _ _, none => mistaken "Unterminated quoted string"
  | .quoted _ _, some '"' => take; return true
  | .braced quoted, none =>
    mistaken (if quoted then "Unterminated quoted string" else "Missing '\x7d'")
  | .braced _, some '\x7d' => take; return true
  | .sum _, none => mistaken "Missing '))'"
  | .sum 0, some ')' =>
    let i ← get
    take
    if ← takeIf ')' then return true
    set i
    return false
  | _, _ => return false

/-- At the start of a line of a text below a command: takes the line if it is the delimiter. -/
def atDelimiter (delimiter : Text) (stripped : Bool) : Reading Bool := do
  joinLines
  if stripped then discard (takeWhile (· = '\t'))
  let i ← get
  if delimiter.isPrefixOf i.rest then
    match i.rest.drop delimiter.length with
    | [] =>
      set { i with rest := [] }
      return true
    | '\n' :: rest =>
      set { i with rest, line := i.line + 1 }
      return true
    | _ => return false
  else return false

/-- Takes the lines of a text in which nothing is special. -/
def literalLines (delimiter : Text) (stripped : Bool) : (fuel : Nat) → Reading Text
  | 0 => return []
  | fuel + 1 => do
    if stripped then discard (takeWhile (· = '\t'))
    let i ← get
    let line := i.rest.takeWhile (· ≠ '\n')
    if line = delimiter || i.rest.isEmpty then
      discard (takeWhile (· ≠ '\n'))
      take
      return []
    discard (takeWhile (· ≠ '\n'))
    if (← peek?).isNone then return line
    take
    return line ++ '\n' :: (← literalLines delimiter stripped fuel)

/-- The script between backquotes, in which a backslash only takes some characters. -/
def backquoted (quoted : Bool) : (fuel : Nat) → Reading Text
  | 0 => return []
  | fuel + 1 => do
    match ← peekJoined? with
    | none => mistaken "EOF in backquote substitution"
    | some '`' =>
      take
      return []
    | some '\\' =>
      take
      match ← peek? with
      | none => mistaken "EOF in backquote substitution"
      | some c =>
        take
        let more ← backquoted quoted fuel
        return if c ∈ ['$', '`', '\\'] || (quoted && c = '"') then c :: more else '\\' :: c :: more
    | some c =>
      take
      return c :: (← backquoted quoted fuel)

/-- Whether a character alone names a parameter. -/
def isSpecial (c : Char) : Bool := c.isDigit || c ∈ ['@', '*', '#', '?', '-', '$', '!']

/-- The name of a parameter in braces, and whether its size is asked for. There is no name if none
is written. -/
def parameterName (fuel : Nat) : Reading (Option (String × Bool)) := do
  let named (c : Char) : Reading String := do
    if isNameStart c then return String.ofList (← takeName isNameChar fuel)
    else if c.isDigit then return String.ofList (← takeName Char.isDigit fuel)
    else
      take
      return String.singleton c
  match ← peekJoined? with
  | none => return none
  | some '#' =>
    take
    let i ← get
    match ← peekJoined? with
    | some c =>
      if isNameChar c then return some (← named c, true)
      else if c = '\x7d' then return some ("#", false)
      else
        take
        if (← peekJoined?) = some '\x7d' then
          return if isSpecial c then some (String.singleton c, true) else none
        set i
        return some ("#", false)
    | none => return some ("#", false)
  | some c => if isNameStart c || isSpecial c then return some (← named c, false) else return none

/-- What is asked about a parameter whose name was read, if a word follows, and whether quotes around
the parameter reach into the word. -/
def form? : Reading (Option ((Word → Form) × Bool)) := do
  let orEmpty ← takeIf ':'
  let fallback (kind : Fallback) : Reading (Option ((Word → Form) × Bool)) := do
    take
    return some (.fallback kind orEmpty, true)
  match ← peekJoined? with
  | some '-' => fallback .use
  | some '=' => fallback .assign
  | some '?' => fallback .complain
  | some '+' => fallback .instead
  | some '\x7d' =>
    if orEmpty then
      take
      return some (fun _ => .plain, true)
    else return none
  | some c =>
    if (c = '%' || c = '#') && !orEmpty then
      take
      return some (.trimmed (c = '%') (← takeIf c), false)
    else
      take
      return none
  | none => return none

/-- Puts a command behind those that were read before. -/
def followedBy : Option Command → Command → Command
  | none, c => c
  | some before, c => .sequence before c

/-- Puts a token back. -/
def putBack (t : Token) : Reading Unit := modify fun i => { i with back := some t }

/-- Reads with another text as input, all of it in the same line. -/
def within {α : Type} (text : Text) (act : Reading α) : Reading α := do
  let i ← get
  set { i with rest := text, inserted := [], busy := i.busyNames, back := none, below := [] }
  let x ← act
  modify fun j =>
    { j with
      rest := i.rest, line := i.line, inserted := i.inserted, busy := i.busy, back := none
      below := i.below }
  return x

/-- What the start of a command asks for. -/
def commandStart : Wants := { pastLines := true, keywords := true, aliases := true }

/-- Whether the name of a function can be this one. -/
def isFunctionName (name : String) : Bool := isName name && !specialCommands.contains name

mutual

/-- Reads pieces up to the end of their list. -/
def pieces : (fuel : Nat) → Mode → Reading (List Piece)
  | 0, _ => mistaken "too long"
  | fuel + 1, mode => do
    if ← atEnd mode then return []
    joinLines
    let some c ← peek? | return []
    take
    if c = '\\' then
      match ← peek? with
      | some d =>
        if mode.escapes d then
          take
          return .char d true :: (← pieces fuel mode)
        else return .char c true :: (← pieces fuel mode)
      | none => return .char c true :: (← pieces fuel mode)
    else if c = '\'' && mode.hasSingle then
      let inside ← takeWhile (· ≠ '\'')
      if (← peek?).isNone then mistaken "Unterminated quoted string"
      take
      return .mark :: inside.map (.char · true) ++ (← pieces fuel mode)
    else if c = '"' && mode.hasDouble then
      let inside ← pieces fuel mode.inDouble
      let inside :=
        match inside with
        | [.value "@" .plain _] => inside
        | _ => .mark :: inside
      return inside ++ (← pieces fuel mode)
    else if c = '`' && !mode.isLiteral then
      let script ← backquoted mode.quotes fuel
      let command ← within script do
        let command ← items fuel true none
        match ← nextToken fuel {} with
        | .finish => pure ()
        | t => unexpected t (some .finish)
        textsBelow fuel
        return command
      return .output command mode.quotes :: (← pieces fuel mode)
    else if c = '$' && !mode.isLiteral then
      let p ← dollar fuel mode.quotes
      return p :: (← pieces fuel mode)
    else
      match mode with
      | .here delimiter stripped =>
        if c = '\n' && (← atDelimiter delimiter stripped) then return [.char c true]
        return .char c true :: (← pieces fuel mode)
      | _ => return .char c mode.quotes :: (← pieces fuel (mode.after c))

/-- Reads what follows a dollar sign. -/
def dollar : (fuel : Nat) → (quoted : Bool) → Reading Piece
  | 0, _ => mistaken "too long"
  | fuel + 1, quoted => do
    match ← peekJoined? with
    | some '(' =>
      take
      if ← takeIf '(' then return .sum (← pieces fuel (.sum 0)) quoted
      let i ← get
      set { i with below := [] }
      let command ← items fuel true none
      match ← nextToken fuel {} with
      | .operator ")" => pure ()
      | t => unexpected t (some (.operator ")"))
      let rest := (← get).rest
      modify fun j => { j with rest := [] }
      textsBelow fuel
      modify fun j => { j with rest, below := i.below }
      return .output command quoted
    | some '\x7b' =>
      take
      formed fuel quoted
    | some c =>
      if isNameStart c then
        return .value (String.ofList (← takeName isNameChar fuel)) .plain quoted
      else if isSpecial c then
        take
        return .value (String.singleton c) .plain quoted
      else return .char '$' quoted
    | none => return .char '$' quoted

/-- Reads a parameter in braces after the opening one. -/
def formed : (fuel : Nat) → (quoted : Bool) → Reading Piece
  | 0, _ => mistaken "too long"
  | fuel + 1, quoted => do
    match ← parameterName fuel with
    | none =>
      discard (pieces fuel (.braced quoted))
      return .malformed
    | some (name, true) =>
      if ← takeIf '\x7d' then return .value name .size quoted
      discard (pieces fuel (.braced quoted))
      return .malformed
    | some (name, false) =>
      if ← takeIf '\x7d' then return .value name .plain quoted
      match ← form? with
      | some (form, keepsQuotes) =>
        return .value name (form (← pieces fuel (.braced (quoted && keepsQuotes)))) quoted
      | none =>
        discard (pieces fuel (.braced quoted))
        return .malformed

/-- Reads a token that is not put back. -/
def rawToken : (fuel : Nat) → (literal : Bool) → Reading Token
  | 0, _ => mistaken "too long"
  | fuel + 1, literal => do
    match (← get).back with
    | some t =>
      modify fun i => { i with back := none }
      return t
    | none =>
      passBlanks fuel
      match ← readOperator? with
      | some t => return t
      | none =>
        let w ← pieces fuel (.bare literal)
        modify fun i => { i with word := w }
        return .word w

/-- Reads the texts below a line at its end. -/
def textsBelow : (fuel : Nat) → Reading Unit
  | 0 => mistaken "too long"
  | fuel + 1 => do
    match (← get).below with
    | [] => return
    | b :: more =>
      modify fun i => { i with below := more }
      let text ←
        if b.literal then pure ((← literalLines b.delimiter b.stripped fuel).map (.char · true))
        else if ← atDelimiter b.delimiter b.stripped then pure []
        else pieces fuel (.here b.delimiter b.stripped)
      modify fun i => { i with found := (b.number, text) :: i.found }
      textsBelow fuel

/-- Reads a token, passing over line ends. -/
def tokenPastLines : (fuel : Nat) → Reading Token
  | 0 => mistaken "too long"
  | fuel + 1 => do
    match ← rawToken fuel false with
    | .newline =>
      textsBelow fuel
      tokenPastLines fuel
    | t => return t

/-- Reads a token. -/
def nextToken : (fuel : Nat) → Wants → Reading Token
  | 0, _ => mistaken "too long"
  | fuel + 1, wants => do
    let before ← get
    let t ← if wants.pastLines then tokenPastLines fuel else rawToken fuel false
    let .word w := t | return t
    match w.plain? with
    | some s =>
      if wants.keywords && reserved.contains s then return .keyword s
      let i ← get
      if wants.aliases || Input.leftSpaced before i then
        match i.alias? w with
        | some (name, text) =>
          set (i.insertAlias name text)
          nextToken fuel { wants with aliases := true }
        | none => return t
      else return t
    | none => return t

/-- Reads a keyword that must be there. -/
def expect : (fuel : Nat) → Wants → (keyword : String) → Reading Unit
  | 0, _, _ => mistaken "too long"
  | fuel + 1, wants, s => do
    let t ← nextToken fuel wants
    if t.isKeyword s then return
    unexpected t (some (.keyword s))

/-- Reads commands over several lines, up to a token that ends their list. There is at least one
command unless `mayEnd`. -/
def items : (fuel : Nat) → (mayEnd : Bool) → (before : Option Command) → Reading (Option Command)
  | 0, _, _ => mistaken "too long"
  | fuel + 1, mayEnd, before => do
    let t ← nextToken fuel commandStart
    putBack t
    match t with
    | .finish =>
      textsBelow fuel
      return before
    | _ =>
      if mayEnd && t.endsList then return before
      let (c, t) ← item fuel
      let c := some (followedBy before c)
      match t with
      | .newline =>
        putBack t
        items fuel true c
      | .operator "&" | .operator ";" => items fuel true c
      | .finish =>
        textsBelow fuel
        putBack t
        return c
      | _ =>
        putBack t
        return c

/-- Reads a command and the token behind it. -/
def item : (fuel : Nat) → Reading (Command × Token)
  | 0 => mistaken "too long"
  | fuel + 1 => do
    let line := (← get).line
    let c ← chain fuel
    let t ← nextToken fuel {}
    return (if t.isOperator "&" then .background line c else c, t)

/-- Reads commands that must be there. At the end of the input there may be none; what is missing
then is found by the caller. -/
def block : (fuel : Nat) → Reading Command
  | 0 => mistaken "too long"
  | fuel + 1 => do
    match ← items fuel false none with
    | some c => return c
    | none => return .simple 0 [] [] []

/-- Reads pipelines that depend on how the one before them ended. -/
def chain : (fuel : Nat) → Reading Command
  | 0 => mistaken "too long"
  | fuel + 1 => do chainMore fuel (← piped fuel {})

def chainMore : (fuel : Nat) → (before : Command) → Reading Command
  | 0, _ => mistaken "too long"
  | fuel + 1, before => do
    match ← nextToken fuel {} with
    | .operator "&&" => chainMore fuel (.both before (← piped fuel commandStart))
    | .operator "||" => chainMore fuel (.either before (← piped fuel commandStart))
    | t =>
      putBack t
      return before

/-- Reads a pipeline. -/
def piped : (fuel : Nat) → Wants → Reading Command
  | 0, _ => mistaken "too long"
  | fuel + 1, wants => do
    let t ← nextToken fuel wants
    if t.isKeyword "!" then
      return .negated (← stages fuel { keywords := true, aliases := true } [])
    putBack t
    stages fuel {} []

/-- Reads the stages of a pipeline. -/
def stages : (fuel : Nat) → Wants → (before : List Command) → Reading Command
  | 0, _, _ => mistaken "too long"
  | fuel + 1, wants, before => do
    let c ← command fuel wants
    match ← nextToken fuel {} with
    | .operator "|" => stages fuel commandStart (before ++ [c])
    | t =>
      putBack t
      return if before.isEmpty then c else .pipeline (before ++ [c])

/-- Reads a command. -/
def command : (fuel : Nat) → Wants → Reading Command
  | 0, _ => mistaken "too long"
  | fuel + 1, wants => do
    let line := (← get).line
    let t ← nextToken fuel wants
    match t with
    | .operator "(" =>
      let c ← block fuel
      match ← nextToken fuel {} with
      | .operator ")" => return .subshell line c (← redirects fuel)
      | t => unexpected t (some (.operator ")"))
    | .keyword "\x7b" =>
      let c ← block fuel
      expect fuel {} "\x7d"
      redirected fuel line c
    | .keyword "if" => redirected fuel line (← conditional fuel)
    | .keyword "while" => redirected fuel line (← looping fuel false)
    | .keyword "until" => redirected fuel line (← looping fuel true)
    | .keyword "for" => redirected fuel line (← forEach fuel line)
    | .keyword "case" => redirected fuel line (← choice fuel line)
    | .word _ | .redirect _ _ | .here _ _ =>
      putBack t
      simple fuel (← get).line [] [] []
    | _ => unexpected t none

/-- Reads the redirections behind a command. -/
def redirects : (fuel : Nat) → Reading (List Redirect)
  | 0 => mistaken "too long"
  | fuel + 1 => do
    let t ← nextToken fuel { keywords := true, aliases := true }
    match ← redirection? fuel t with
    | some r => return r :: (← redirects fuel)
    | none =>
      putBack t
      return []

def redirected : (fuel : Nat) → (line : Nat) → Command → Reading Command
  | 0, _, _ => mistaken "too long"
  | fuel + 1, line, c => do
    match ← redirects fuel with
    | [] => return c
    | rs => return .redirected line c rs

/-- Reads the target of a redirection, if the token begins one. -/
def redirection? : (fuel : Nat) → Token → Reading (Option Redirect)
  | 0, _ => mistaken "too long"
  | fuel + 1, t => do
    match t with
    | .redirect d kind =>
      match ← nextToken fuel {} with
      | .word w => return some (.mk d kind w)
      | t => unexpected t none
    | .here d stripped =>
      match ← rawToken fuel true with
      | .word w =>
        let i ← get
        set { i with
          asked := i.asked + 1
          below := i.below ++ [Below.mk i.asked w.literal stripped (!w.isUnquoted)] }
        return some (.mk d .here ((i.known.lookup i.asked).getD []))
      | t => unexpected t none
    | _ => return none

/-- Reads a condition after its first word. -/
def conditional : (fuel : Nat) → Reading Command
  | 0 => mistaken "too long"
  | fuel + 1 => do
    let test ← block fuel
    expect fuel {} "then"
    let yes ← block fuel
    let t ← nextToken fuel {}
    if t.isKeyword "elif" then return .conditional test yes (some (← conditional fuel))
    else if t.isKeyword "else" then
      let no ← block fuel
      expect fuel {} "fi"
      return .conditional test yes (some no)
    else if t.isKeyword "fi" then return .conditional test yes none
    else unexpected t (some (.keyword "fi"))

/-- Reads a loop after its first word. -/
def looping : (fuel : Nat) → (failing : Bool) → Reading Command
  | 0, _ => mistaken "too long"
  | fuel + 1, failing => do
    let test ← block fuel
    expect fuel {} "do"
    let body ← block fuel
    expect fuel {} "done"
    return .loop failing test body

/-- Reads a loop over words after its first word. -/
def forEach : (fuel : Nat) → (line : Nat) → Reading Command
  | 0, _ => mistaken "too long"
  | fuel + 1, line => do
    let name :=
      match ← nextToken fuel {} with
      | .word w => w.plain?
      | _ => none
    let some name := name.filter isName | mistaken "Bad for loop variable"
    let t ← nextToken fuel commandStart
    let words ←
      if t.isKeyword "in" then wordList fuel
      else
        if !t.isOperator ";" then putBack t
        pure [[.value "@" .plain true]]
    expect fuel commandStart "do"
    let body ← block fuel
    expect fuel {} "done"
    return .each line name words body

/-- Reads words up to the end of the line or a semicolon. -/
def wordList : (fuel : Nat) → Reading (List Word)
  | 0 => mistaken "too long"
  | fuel + 1 => do
    match ← nextToken fuel {} with
    | .word w => return w :: (← wordList fuel)
    | .newline | .operator ";" => return []
    | t => unexpected t none

/-- Reads a choice after its first word. -/
def choice : (fuel : Nat) → (line : Nat) → Reading Command
  | 0, _ => mistaken "too long"
  | fuel + 1, line => do
    match ← nextToken fuel {} with
    | .word w =>
      expect fuel commandStart "in"
      return .choice line w (← caseArms fuel)
    | t => unexpected t (some (.word []))

/-- Reads the arms of a choice and the word that ends it. -/
def caseArms : (fuel : Nat) → Reading (List (List Word × Option Command))
  | 0 => mistaken "too long"
  | fuel + 1 => do
    let start : Wants := { pastLines := true, keywords := true }
    let t ← nextToken fuel start
    if t.isKeyword "esac" then return []
    if t.isOperator "(" then discard (nextToken fuel {})
    let patterns ← casePatterns fuel
    let c ← items fuel true none
    let t ← nextToken fuel start
    if t.isKeyword "esac" then return [(patterns, c)]
    else if t.isOperator ";;" then return (patterns, c) :: (← caseArms fuel)
    else unexpected t (some (.operator ";;"))

/-- Reads the patterns of an arm, of which the first was read, and the bracket behind them. -/
def casePatterns : (fuel : Nat) → Reading (List Word)
  | 0 => mistaken "too long"
  | fuel + 1 => do
    let w := (← get).word
    match ← nextToken fuel {} with
    | .operator "|" =>
      discard (nextToken fuel {})
      return w :: (← casePatterns fuel)
    | .operator ")" => return [w]
    | t => unexpected t (some (.operator ")"))

/-- Reads a simple command or the definition of a function. -/
def simple : (fuel : Nat) → (line : Nat) → List (String × Word) → List Word → List Redirect →
    Reading Command
  | 0, _, _, _, _ => mistaken "too long"
  | fuel + 1, line, assignments, words, rs => do
    let t ← nextToken fuel { aliases := words.isEmpty }
    match ← redirection? fuel t with
    | some r => simple fuel line assignments words (rs ++ [r])
    | none =>
      match t, assignments, words, rs with
      | .word w, _, _, _ =>
        match words, w.assignment? with
        | [], some a => simple fuel line (assignments ++ [a]) words rs
        | _, _ => simple fuel line assignments (words ++ [w]) rs
      | .operator "(", [], [w], [] =>
        match ← nextToken fuel {} with
        | .operator ")" =>
          let some name := w.plain?.filter isFunctionName | mistaken "Bad function name"
          return .define name (← command fuel commandStart)
        | t => unexpected t (some (.operator ")"))
      | _, _, _, _ =>
        putBack t
        return .simple line assignments words rs

end

/-- What is read of a line. -/
structure Line where
  /-- There may be no command on it. -/
  command : Option Command := none
  /-- Whether the input ends with it. -/
  isLast : Bool := false

/-- Reads the rest of a line. -/
def lineRest : (fuel : Nat) → (before : Option Command) → Reading Line
  | 0, _ => mistaken "too long"
  | fuel + 1, command => do
    let t ← nextToken fuel { keywords := true, aliases := true }
    match t with
    | .newline =>
      textsBelow fuel
      return { command }
    | .finish =>
      textsBelow fuel
      return { command, isLast := true }
    | _ =>
      putBack t
      let (c, t) ← item fuel
      let command := some (followedBy command c)
      match t with
      | .operator ";" | .operator "&" => lineRest fuel command
      | .newline | .finish =>
        putBack t
        lineRest fuel command
      | _ => unexpected t none

/-- Reads a line as often as texts below it are found that the last reading did not know. -/
def readLine (i : Input) : (passes : Nat) → (known : List (Nat × Word)) →
    Except Mistake (Line × Input)
  | 0, known => (lineRest (64 * i.rest.length + 128) none).run { i with known }
  | passes + 1, known => do
    let (line, after) ← (lineRest (64 * i.rest.length + 128) none).run { i with known }
    if after.found.length = known.length then return (line, after)
    else readLine i passes after.found

/-- Reads a line of a script, which may hold no command. The input is left as the next reading takes
it up. -/
def nextLine (i : Input) : Except Mistake (Line × Input) := do
  let start : Input :=
    { rest := i.rest, line := i.line, aliases := i.aliases, inserted := i.inserted, busy := i.busy }
  readLine start i.rest.length []

end RobotHost.Shell
