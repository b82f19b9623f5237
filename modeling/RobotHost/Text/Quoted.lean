import RobotHost.Text.Graphic

/-!
# Quoted texts

A text is written between double quotes so that every character shows: a quote and a backslash
stand behind a backslash, line breaks, tabs and NUL have letters of their own, and any other
character that is not graphic is written as its code point.
-/

namespace RobotHost.Text

/-- The code point of a character, in lower-case hexadecimal digits and braces. -/
def codePoint (c : Char) : String :=
  "\\u\x7b" ++ String.ofList (Nat.toDigits 16 c.toNat) ++ "\x7d"

/-- A character as it is written between quotes. -/
def escape (c : Char) : String :=
  match c with
  | '\x00' => "\\0"
  | '\t' => "\\t"
  | '\n' => "\\n"
  | '\r' => "\\r"
  | '"' => "\\\""
  | '\\' => "\\\\"
  | c => if isGraphic c then String.singleton c else codePoint c

/-- A text in quotes. -/
def quoted (s : String) : String := "\"" ++ String.join (s.toList.map escape) ++ "\""

end RobotHost.Text
