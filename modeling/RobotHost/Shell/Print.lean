import RobotHost.Decimal.Literal
import RobotHost.Decimal.Places
import RobotHost.Shell.Number

/-!
# Printed texts

What `echo` and `printf` write. In the text of `echo` and in formats, a backslash begins an escape;
in the text of `echo` and of the conversion `b`, `\c` ends the output.
-/

namespace RobotHost.Shell

/-! ## Escapes -/

/-- Reads up to `most` octal digits. -/
def octalDigits (value : Nat) : (most : Nat) → List Char → Nat × List Char
  | 0, cs => (value, cs)
  | _, [] => (value, [])
  | most + 1, c :: rest =>
    match digit? 8 c with
    | some d => octalDigits (value * 8 + d) most rest
    | none => (value, c :: rest)

/-- The character that an escape stands for, after its backslash, and what follows. -/
def escape? : List Char → Option (Char × List Char)
  | 'a' :: rest => some ('\x07', rest)
  | 'b' :: rest => some ('\x08', rest)
  | 'f' :: rest => some ('\x0c', rest)
  | 'n' :: rest => some ('\n', rest)
  | 'r' :: rest => some ('\r', rest)
  | 't' :: rest => some ('\t', rest)
  | 'v' :: rest => some ('\x0b', rest)
  | '\\' :: rest => some ('\\', rest)
  | c :: rest =>
    (digit? 8 c).map fun d =>
      let (value, rest) := octalDigits d 2 rest
      (Char.ofNat (value % 256), rest)
  | [] => none

/-- A text with its escapes replaced, and whether the output ends with it. Octal digits may stand
behind a zero. -/
def unescape (fuel : Nat) (done : List Char) : List Char → List Char × Bool
  | [] => (done.reverse, false)
  | '\\' :: 'c' :: _ => (done.reverse, true)
  | c :: rest =>
    match fuel with
    | 0 => (done.reverse, false)
    | fuel + 1 =>
      if c = '\\' then
        match rest with
        | '0' :: more =>
          let (value, more) := octalDigits 0 3 more
          unescape fuel (Char.ofNat (value % 256) :: done) more
        | _ =>
          match escape? rest with
          | some (d, more) => unescape fuel (d :: done) more
          | none => unescape fuel (c :: done) rest
      else unescape fuel (c :: done) rest

/-- What `echo` writes. -/
def echoText (args : List String) : String :=
  let (args, ending) :=
    match args with
    | "-n" :: rest => (rest, "")
    | _ => (args, "\n")
  let text := (String.intercalate " " args).toList
  let (text, ended) := unescape text.length [] text
  String.ofList text ++ if ended then "" else ending

/-! ## Conversions -/

/-- How an argument is to be written. -/
structure Conversion where
  flags : List Char
  width : Nat
  precision : Option Nat

namespace Conversion

def isLeft (c : Conversion) : Bool := c.flags.contains '-'

/-- A text in its field; `zeros` says that zeros may fill it behind the sign and the base. -/
def inField (c : Conversion) (zeros : Bool) (before text : String) : String :=
  let missing := c.width - before.length - text.length
  if c.isLeft then before ++ text ++ "".pushn ' ' missing
  else if zeros && c.flags.contains '0' then before ++ "".pushn '0' missing ++ text
  else "".pushn ' ' missing ++ before ++ text

/-- The sign of a number. -/
def sign (c : Conversion) (negative : Bool) : String :=
  if negative then "-"
  else if c.flags.contains '+' then "+"
  else if c.flags.contains ' ' then " "
  else ""

/-- A text that may be cut. -/
def ofText (c : Conversion) (text : String) : String :=
  let cut := (c.precision.map fun n => String.ofList (text.toList.take n)).getD text
  c.inField false "" cut

/-- The digits of a whole number; there are none if no digit of zero is asked for. -/
def wholeDigits (c : Conversion) (base n : Nat) : String :=
  let digits := if n = 0 && c.precision = some 0 then [] else Nat.toDigits base n
  String.ofList (List.replicate ((c.precision.getD 0) - digits.length) '0' ++ digits)

def ofInt (c : Conversion) (n : Int) : String :=
  c.inField c.precision.isNone (c.sign (n < 0)) (c.wholeDigits 10 n.natAbs)

/-- A number of 64 bits without a sign, as the letter of a base asks for. -/
def ofNat (c : Conversion) (letter : Char) (n : Nat) : String :=
  let other := c.flags.contains '#'
  let zeros := c.precision.isNone
  match letter with
  | 'o' =>
    let digits := c.wholeDigits 8 n
    c.inField zeros "" (if other && !digits.startsWith "0" then "0" ++ digits else digits)
  | 'x' => c.inField zeros (if other && n ≠ 0 then "0x" else "") (c.wholeDigits 16 n)
  | 'X' => c.inField zeros (if other && n ≠ 0 then "0X" else "") (c.wholeDigits 16 n).toUpper
  | _ => c.inField zeros "" (c.wholeDigits 10 n)

/-- A binary64 value, as a letter asks for. -/
def ofFloat (c : Conversion) (letter : Char) (x : Float) : String :=
  let b := Decimal.Binary64.ofFloat x
  let v := Decimal.Quotient.ofBinary b.mantissa b.exponent
  let other := c.flags.contains '#'
  let places := c.precision.getD 6
  let text :=
    if x.isNaN then "nan"
    else if x.isInf then "inf"
    else
      match letter.toLower with
      | 'f' => v.fixedText other places
      | 'e' => v.scientificText other places
      | 'g' => v.generalText other places
      | _ => Decimal.hexadecimalText b other c.precision
  let text := if letter.isUpper then text.toUpper else text
  let sign := c.sign b.negative
  if text.toLower.startsWith "0x" then
    c.inField x.isFinite (sign ++ String.ofList (text.toList.take 2))
      (String.ofList (text.toList.drop 2))
  else c.inField x.isFinite sign text

end Conversion

/-! ## Formats -/

/-- What a format has written so far. -/
structure Printed where
  text : String := ""
  args : List String
  /-- What is wrong with arguments. -/
  complaints : List String := []
  /-- What is wrong with the format. -/
  fault : Option String := none
  ended : Bool := false
  /-- Whether an argument was taken. -/
  took : Bool := false

namespace Printed

/-- Whether nothing more is written. -/
def isOver (p : Printed) : Bool := p.ended || p.fault.isSome

def put (p : Printed) (text : String) : Printed := { p with text := p.text ++ text }

def putChar (p : Printed) (c : Char) : Printed := { p with text := p.text.push c }

/-- Takes the next argument, if there is one. -/
def next (p : Printed) : Option String × Printed :=
  match p.args with
  | [] => (none, p)
  | arg :: args => (some arg, { p with args, took := true })

/-- Says what is wrong with an argument of which `rest` is no number. -/
def check (p : Printed) (arg : String) (rest : List Char) (outOfRange : Bool) : Printed :=
  let complain (text : String) : Printed :=
    { p with complaints := p.complaints ++ [arg ++ ": " ++ text] }
  if rest.length = arg.length && !rest.isEmpty then complain "expected numeric value"
  else if !rest.isEmpty then complain "not completely converted"
  else if outOfRange then complain "Numerical result out of range"
  else p

/-- The code of the character behind a quote, if an argument begins with one. -/
def quotedCode? (arg : String) : Option Nat :=
  match arg.toList with
  | '"' :: rest | '\'' :: rest => some ((rest.head?.map Char.toNat).getD 0)
  | _ => none

/-- The greatest number without a sign. -/
def maxUnsigned : Nat := Nat.pow 2 64 - 1

/-- A number with its sign within bounds, and whether it was beyond them. -/
def bounded (isSigned negative : Bool) (n : Nat) : Int × Bool :=
  let most := if isSigned then (if negative then maxNumber + 1 else maxNumber) else maxUnsigned
  let kept := min n most
  let value : Int :=
    if !negative then kept
    else if isSigned then -(kept : Int)
    else if most < n then maxUnsigned
    else ((maxUnsigned + 1 - kept) % (maxUnsigned + 1) : Nat)
  (value, most < n)

/-- The next argument as a whole number. -/
def nextInt (p : Printed) (isSigned : Bool) : Int × Printed :=
  match p.next with
  | (none, p) => (0, p)
  | (some arg, p) =>
    match quotedCode? arg with
    | some code => (code, p)
    | none =>
      let (negative, cs) := signed (arg.toList.dropWhile isSpace)
      match unsigned? true cs with
      | none => (0, p.check arg arg.toList false)
      | some (n, rest) =>
        let (value, outOfRange) := bounded isSigned negative n
        (value, p.check arg rest outOfRange)

/-- The next argument as a binary64 value. -/
def nextFloat (p : Printed) : Float × Printed :=
  match p.next with
  | (none, p) => (0.0, p)
  | (some arg, p) =>
    match quotedCode? arg with
    | some code => (Float.ofNat code, p)
    | none =>
      match Decimal.literal? (arg.toList.dropWhile isSpace) with
      | some l => (l.value, p.check arg l.rest l.isOutOfRange)
      | none => (0.0, p.check arg arg.toList false)

/-- Writes the next argument as a conversion asks for; `written` is how the format writes it. -/
def convert (p : Printed) (c : Conversion) (letter : Char) (written : String) : Printed :=
  if letter = 'd' || letter = 'i' then
    let (n, p) := p.nextInt true
    p.put (c.ofInt n)
  else if letter ∈ ['o', 'u', 'x', 'X'] then
    let (n, p) := p.nextInt false
    p.put (c.ofNat letter (n % (maxUnsigned + 1)).toNat)
  else if letter ∈ ['a', 'A', 'e', 'E', 'f', 'F', 'g', 'G'] then
    let (x, p) := p.nextFloat
    p.put (c.ofFloat letter x)
  else
    match letter, p.next with
    | 's', (arg, p) => p.put (c.ofText (arg.getD ""))
    | 'c', (arg, p) =>
      let first := ((arg.getD "").toList.head?).getD '\x00'
      p.put (c.inField false "" (String.singleton first))
    | 'b', (arg, p) =>
      let text := (arg.getD "").toList
      let (text, ended) := unescape text.length [] text
      { p.put (c.ofText (String.ofList text)) with ended }
    | _, _ => { p with fault := some (written ++ ": invalid directive") }

/-- Reads a width or precision that stands in the format or, at a star, in the next argument. -/
def size (p : Printed) (cs : List Char) : Int × Printed × List Char :=
  match cs with
  | '*' :: rest =>
    let (n, p) := p.nextInt true
    (n, p, rest)
  | _ =>
    let (n, rest) := digits 10 0 cs
    (n, p, rest.dropWhile fun c => c.isDigit || c = '*')

/-- Reads a conversion after its sign and writes what it asks for. -/
def conversion (p : Printed) (cs : List Char) : Printed × List Char :=
  let flags := cs.takeWhile fun c => c ∈ ['#', '-', '+', ' ', '0']
  let (width, p, rest) := p.size (cs.drop flags.length)
  let flags := if width < 0 then '-' :: flags else flags
  let (precision, p, rest) :=
    match rest with
    | '.' :: rest =>
      let (n, p, rest) := p.size rest
      (if n < 0 then none else some n.toNat, p, rest)
    | _ => (none, p, rest)
  match rest with
  | [] => ({ p with fault := some "missing format character" }, [])
  | letter :: rest =>
    let written := "%" ++ String.ofList (cs.take (cs.length - rest.length))
    (p.convert ⟨flags, width.natAbs, precision⟩ letter written, rest)

/-- Writes a format once. -/
def format (p : Printed) : (fuel : Nat) → List Char → Printed
  | 0, _ | _, [] => p
  | fuel + 1, '%' :: '%' :: rest => (p.putChar '%').format fuel rest
  | fuel + 1, '%' :: rest =>
    let (p, rest) := p.conversion rest
    if p.isOver then p else p.format fuel rest
  | fuel + 1, '\\' :: rest =>
    match escape? rest with
    | some (c, more) => (p.putChar c).format fuel more
    | none => (p.putChar '\\').format fuel rest
  | fuel + 1, c :: rest => (p.putChar c).format fuel rest

/-- Writes a format again as long as it takes arguments and some are left. -/
def repeated (format : List Char) : (rounds : Nat) → Printed → Printed
  | 0, p => p
  | rounds + 1, p =>
    let p := { p with took := false }.format format.length format
    if p.isOver || p.args.isEmpty || !p.took then p else repeated format rounds p

end Printed

/-- What a format writes with arguments. -/
def printed (format : String) (args : List String) : Printed :=
  Printed.repeated format.toList (args.length + 1) { args }

end RobotHost.Shell
