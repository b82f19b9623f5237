import RobotHost.Shell.Basic
import RobotHost.Shell.Field

/-!
# Paths that fit a pattern

A field with special signs stands for all paths that fit it, in order; if there are none, it stands
for itself. A name that begins with a point fits only a pattern that begins with one.
-/

namespace RobotHost.Shell

namespace Glob

/-- A pattern without its backslashes. -/
def unescaped : Pattern → List Char
  | '\\' :: c :: rest => c :: unescaped rest
  | c :: rest => c :: unescaped rest
  | [] => []

/-- Whether brackets that were opened are closed before the next slash; the first character in them
does not close them. -/
def closes : (isFirst : Bool) → Pattern → Bool
  | _, [] => false
  | _, '\\' :: c :: rest =>
    match c, rest with
    | '/', _ => false
    | _, ']' :: _ => true
    | _, rest => closes false rest
  | _, '/' :: _ => false
  | true, '!' :: rest => closes false rest
  | _, _ :: ']' :: _ => true
  | _, _ :: rest => closes false rest

/-- A pattern up to the next slash: whether it has special signs, itself, and what follows the
slash, if there is one. -/
def component (special : Bool) (done : List Char) :
    Pattern → Bool × Pattern × Option Pattern
  | [] => (special, done.reverse, none)
  | '\\' :: '/' :: rest | '/' :: rest => (special, done.reverse, some rest)
  | '\\' :: c :: rest => component special (c :: '\\' :: done) rest
  | c :: rest =>
    let isSpecial := c = '*' || c = '?' || (c = '[' && closes true rest)
    component (special || isSpecial) (c :: done) rest

/-- The names in a directory, with the two that lead to it and out of it. -/
def namesIn (s : Shell) (path : String) : List String :=
  let path := if path.isEmpty then "." else path
  match s.system.files.locateDirectory s.directory (gather path) with
  | .ok p => "." :: ".." :: (s.system.files.names p).map spread
  | .error _ => []

/-- Whether something is at a path. -/
def isThere (s : Shell) (path : String) : Bool :=
  (s.system.files.locateLink s.directory (gather path)).isOk

/-- The paths that begin with `path` and go on as a pattern says; `matched` tells whether a special
sign was used already. -/
def pathsFrom (s : Shell) : (fuel : Nat) → (matched : Bool) → (path : String) → Pattern → List String
  | 0, _, _, _ => []
  | fuel + 1, matched, path, p =>
    let (special, part, rest) := component false [] p
    if special then
      let startsWithPoint := (unescaped part).head? = some '.'
      let names := (namesIn s path).filter fun n =>
        (startsWithPoint || !n.startsWith ".") && fits part n.toList
      match rest with
      | none => names.map (path ++ ·)
      | some rest => names.flatMap fun n => pathsFrom s fuel true (path ++ n ++ "/") rest
    else
      let path := path ++ String.ofList (unescaped part)
      match rest with
      | none => if matched && isThere s path then [path] else []
      | some rest => pathsFrom s fuel matched (path ++ "/") rest

/-- Whether a text has a sign that may be special. -/
def hasSign (text : String) : Bool := text.toList.any fun c => c = '*' || c = '?' || c = '['

/-- What a field stands for. -/
def expand (s : Shell) (f : Field) : List String :=
  let text := f.text
  if s.has .noglob || !hasSign text then [text]
  else
    match (pathsFrom s (f.length + 1) false "" f.pattern).mergeSort (· ≤ ·) with
    | [] => [text]
    | paths => paths

end Glob

end RobotHost.Shell
