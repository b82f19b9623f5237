/-!
# Patterns

In a pattern a star stands for any text, a question mark for any character, and brackets for one of
the characters they hold. A backslash makes the character behind it stand for itself.
-/

namespace RobotHost.Shell

abbrev Pattern := List Char

/-- The characters that need a backslash to stand for themselves somewhere in a pattern. -/
def isPatternSign (c : Char) : Bool :=
  c ∈ ['!', '*', '?', '[', '=', '~', ':', '/', '-', ']', '\\']

/-- Whether a character belongs to a class of characters. -/
def classHolds? (name : String) (c : Char) : Option Bool :=
  let isGraphic : Bool := '!' ≤ c && c ≤ '~'
  match name with
  | "alpha" => some c.isAlpha
  | "digit" => some c.isDigit
  | "alnum" => some c.isAlphanum
  | "upper" => some c.isUpper
  | "lower" => some c.isLower
  | "space" => some (c ∈ [' ', '\t', '\n', '\r', '\x0b', '\x0c'])
  | "blank" => some (c ∈ [' ', '\t'])
  | "punct" => some (isGraphic && !c.isAlphanum)
  | "cntrl" => some (c < ' ' || c = '\x7f')
  | "print" => some (c = ' ' || isGraphic)
  | "graph" => some isGraphic
  | "xdigit" => some (c.isDigit || ('a' ≤ c && c ≤ 'f') || ('A' ≤ c && c ≤ 'F'))
  | _ => none

/-- Whether `[:name:]` holds a character, after its bracket, and what follows. -/
def classItem? (c : Char) (p : Pattern) : Option (Bool × Pattern) :=
  match p with
  | ':' :: rest =>
    let name := rest.takeWhile Char.isAlpha
    match rest.drop name.length with
    | ':' :: ']' :: rest => (classHolds? (String.ofList name) c).map (·, rest)
    | _ => none
  | _ => none

/-- The order of characters in ranges: that of signed bytes. -/
def rank (c : Char) : Int := if c.toNat < 128 then c.toNat else (c.toNat : Int) - 256

/-- Whether a range or a single character holds a character. -/
def rangeItem (c low : Char) (rest : Pattern) : Bool × Pattern :=
  match rest with
  | '-' :: high :: more =>
    if high = ']' then (c = low, rest)
    else
      let (high, more) :=
        match high, more with
        | '\\', h :: more => (h, more)
        | _, _ => (high, more)
      (rank low ≤ rank c && rank c ≤ rank high, more)
  | _ => (c = low, rest)

/-- Whether the first item between brackets holds a character, and what follows the item. -/
def bracketItem (c first : Char) (rest : Pattern) : Bool × Pattern :=
  match first, rest with
  | '\\', low :: more => rangeItem c low more
  | '[', _ => (classItem? c rest).getD (rangeItem c '[' rest)
  | _, _ => rangeItem c first rest

/-- Whether brackets hold a character, and what follows them, if they are closed before `limit`
items are over. The first character in them is never the closing one. -/
def brackets? (c : Char) (held : Bool) : (limit : Nat) → Pattern → Option (Bool × Pattern)
  | 0, _ | _, [] => none
  | limit + 1, first :: rest =>
    let (found, rest) := bracketItem c first rest
    match rest with
    | ']' :: rest => some (held || found, rest)
    | _ => brackets? c (held || found) limit rest

/-- Whether brackets stand for a character, and what follows them. -/
def bracketed? (c : Char) (p : Pattern) : Option (Bool × Pattern) :=
  match p with
  | '!' :: rest => (brackets? c false rest.length rest).map fun r => (!r.1, r.2)
  | _ => brackets? c false p.length p

/-- Whether a pattern stands for a text. -/
def fits (p : Pattern) (text : List Char) : Bool :=
  match p, text with
  | [], [] => true
  | [], _ :: _ => false
  | '*' :: rest, [] => fits rest []
  | '*' :: rest, c :: more => fits rest (c :: more) || fits ('*' :: rest) more
  | _ :: _, [] => false
  | '?' :: rest, _ :: more => fits rest more
  | '\\' :: d :: rest, c :: more => c = d && fits rest more
  | '[' :: rest, c :: more =>
    match bracketed? c rest with
    | some (held, left) => if left.length ≤ rest.length then held && fits left more else false
    | none => c = '[' && fits rest more
  | d :: rest, c :: more => c = d && fits rest more
termination_by p.length + text.length

/-- A text up to the first NUL. -/
def firstPart (text : List Char) : List Char := text.takeWhile (· ≠ '\x00')

/-- The places in a text, up to its end or up to the first NUL. -/
def places (toEnd : Bool) (text : List Char) : List Nat :=
  List.range ((if toEnd then text else firstPart text).length + 1)

/-- A text without a part at its start that fits, either the longest or the shortest. A NUL ends what
is compared with the pattern. -/
def trimStart (longest : Bool) (p : Pattern) (text : List Char) : List Char :=
  let places := if longest then (places true text).reverse else places false text
  match places.find? fun n => fits p (firstPart (text.take n)) with
  | some n => text.drop n
  | none => text

/-- A text without a part at its end that fits, either the longest or the shortest. A NUL ends what
is compared with the pattern. -/
def trimEnd (longest : Bool) (p : Pattern) (text : List Char) : List Char :=
  let places := if longest then places false text else (places true text).reverse
  match places.find? fun n => fits p (firstPart (text.drop n)) with
  | some n => text.take n
  | none => text

end RobotHost.Shell
