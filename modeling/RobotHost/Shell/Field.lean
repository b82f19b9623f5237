import RobotHost.Shell.Bytes
import RobotHost.Shell.Pattern

/-!
# Fields

What the pieces of a word stand for is a list of atoms. Where fields are asked for, the parts of the
word that came from values are split at separators. Blanks among the separators count once in a
row, and not at all at the ends; any other separator ends a field, which may be empty.

The parts that are split are marked by where they start and stop. In some of them only the borders
between arguments split.
-/

namespace RobotHost.Shell

inductive Atom where
  | char (c : Char) (quoted : Bool)
  /-- The start of a quoted part, which makes a field even if it is empty. -/
  | mark
  /-- The border between two arguments. -/
  | border
  /-- The start of a part that is split, perhaps only at borders. -/
  | start (bordersOnly : Bool)
  /-- The end of a part that is split. -/
  | stop

/-- A field: its characters, each quoted or not. -/
abbrev Field := List (Char × Bool)

namespace Field

def text (f : Field) : String := String.ofList (f.map Prod.fst)

/-- A field as a pattern: quoted signs have a backslash. -/
def pattern (f : Field) : Pattern :=
  f.flatMap fun (c, quoted) => if quoted && isPatternSign c then ['\\', c] else [c]

end Field

/-! ## Atoms -/

def charAtoms (quoted : Bool) (s : String) : List Atom := s.toList.map (.char · quoted)

/-- The characters of a value, which is split if it is not quoted. -/
def valueAtoms (quoted : Bool) (s : String) : List Atom :=
  if quoted then charAtoms true s else .start false :: charAtoms false s ++ [.stop]

/-- The characters of a word that are not split. -/
def unsplit (atoms : List Atom) : Field :=
  atoms.flatMap fun a =>
    match a with
    | .char c quoted => [(c, quoted)]
    | .border | .mark | .start _ | .stop => []

/-- The text of a word that is not split. -/
def textOf (atoms : List Atom) : String := (unsplit atoms).text

/-- A word as a pattern. -/
def patternOf (atoms : List Atom) : Pattern := (unsplit atoms).pattern

/-! ## Splitting -/

def isSeparatorBlank (c : Char) : Bool := c = ' ' || c = '\t' || c = '\n'

/-- A word that is being split. -/
structure Splitting where
  separators : List Char
  /-- How many more fields end at a separator, if they are counted. -/
  left : Option Nat := none
  fields : List Field := []
  /-- The field that is being read, its last character first. -/
  field : Field := []
  /-- Whether the field has begun. -/
  begun : Bool := false
  /-- How long the field is without the blanks at its end, if it ends with some. -/
  trimmed : Option Nat := none
  /-- Whether characters are in a part that is split. -/
  inside : Bool := false
  /-- Whether this part is, or the last one was, split at borders only. -/
  bordersOnly : Bool := false
  /-- Whether the part before this one was split at borders only. -/
  afterBorders : Bool := false
  /-- Whether blanks ended the last field. -/
  spaced : Bool := false
  /-- Whether what follows the end of a field may still belong to the separator. -/
  passing : Bool := false

namespace Splitting

def append (s : Splitting) (c : Char) (quoted : Bool) : Splitting :=
  { s with field := (c, quoted) :: s.field, begun := true }

/-- Ends the field. -/
def finishField (s : Splitting) : Splitting :=
  { s with
    fields := s.field.reverse :: s.fields, field := [], begun := false
    passing := !s.bordersOnly && !s.afterBorders }

/-- Reads a character of the last field that is counted. -/
def appendLast (s : Splitting) (c : Char) (quoted separates blank : Bool) : Splitting :=
  let s :=
    if blank then { s with trimmed := some (s.trimmed.getD s.field.length) }
    else
      { s with trimmed := if separates && s.spaced then s.trimmed else none, spaced := false }
  s.append c quoted

/-- Reads a separator. -/
def separate (s : Splitting) (c : Char) (quoted blank : Bool) : Splitting :=
  let s := if s.afterBorders || s.bordersOnly then s else { s with spaced := blank }
  if !s.begun && s.spaced then s
  else
    match s.left with
    | some n =>
      if n ≤ 1 then { s with left := some 0, trimmed := some s.field.length }.append c quoted
      else { s.finishField with left := some (n - 1) }
    | none => s.finishField

/-- Reads a character in a part that is split. -/
def step (s : Splitting) (c : Char) (quoted separates blank : Bool) : Splitting :=
  let s :=
    if s.passing && !(separates && (blank || s.spaced)) then { s with passing := false } else s
  if s.passing then { s with spaced := blank && s.spaced }
  else if s.left = some 0 then s.appendLast c quoted separates blank
  else if separates then s.separate c quoted blank
  else { s with spaced := false }.append c quoted

def read (s : Splitting) : Atom → Splitting
  | .char c quoted =>
    if s.inside then
      let separates := !s.bordersOnly && s.separators.contains c
      s.step c quoted separates (separates && isSeparatorBlank c)
    else s.append c quoted
  | .mark => { s with begun := true }
  | .border => s.step '\x00' true true true
  | .start bordersOnly =>
    { s with
      inside := true, afterBorders := s.bordersOnly, bordersOnly, spaced := false, passing := false }
  | .stop => { s with inside := false, passing := false }

/-- All fields, at the end. -/
def result (s : Splitting) : List Field :=
  let last :=
    match s.trimmed with
    | some n => s.field.reverse.take n
    | none => s.field.reverse
  let isThere := s.bordersOnly || (if s.trimmed.isSome then !last.isEmpty else s.begun)
  s.fields.reverse ++ if isThere then [last] else []

end Splitting

/-- The fields of a word; only so many if they are counted, of which the last gets the rest. -/
def split (separators : List Char) (count : Option Nat) (atoms : List Atom) : List Field :=
  (atoms.foldl Splitting.read { separators, left := count }).result

end RobotHost.Shell
