/-!
# Texts of the shell

A shell works on bytes. Its texts are strings in which each character stands for one byte;
`spread` makes such a text of a string, and `gather` is the way back.
-/

namespace RobotHost.Shell

/-- Bytes, a character each. -/
def ofBytes (bytes : ByteArray) : String :=
  String.ofList (bytes.toList.map fun b => Char.ofNat b.toNat)

/-- The bytes that a text stands for. -/
def toBytes (text : String) : ByteArray :=
  ⟨(text.toList.map fun c => UInt8.ofNat c.toNat).toArray⟩

/-- The bytes of a string, a character each. -/
def spread (s : String) : String := ofBytes s.toUTF8

/-- The string whose bytes a text stands for; if there is none, the text itself. -/
def gather (text : String) : String := (String.fromUTF8? (toBytes text)).getD text

/-! ## Classes of characters -/

def isBlank (c : Char) : Bool := c = ' ' || c = '\t'

def isSpace (c : Char) : Bool := c ∈ [' ', '\t', '\n', '\r', '\x0b', '\x0c']

def isNameStart (c : Char) : Bool := c.isAlpha || c = '_'

def isNameChar (c : Char) : Bool := c.isAlphanum || c = '_'

/-- Whether a text can name a parameter or a function. -/
def isName (s : String) : Bool :=
  match s.toList with
  | [] => false
  | c :: rest => isNameStart c && rest.all isNameChar

/-! ## Quoted texts -/

/-- A text in single quotes; single quotes within it stand in double ones. -/
def inQuotes (text : String) : String := go text.toList text.length
where
  go (cs : List Char) : (fuel : Nat) → String
    | 0 => "''"
    | fuel + 1 =>
      let plain := cs.takeWhile (· ≠ '\'')
      let rest := cs.drop plain.length
      let quotes := rest.takeWhile (· = '\'')
      let more := rest.drop quotes.length
      let first := "'" ++ String.ofList plain ++ "'"
      if quotes.isEmpty then first
      else
        first ++ "\"" ++ String.ofList quotes ++ "\"" ++ (if more.isEmpty then "" else go more fuel)

end RobotHost.Shell
