/-!
# Trees of files

A tree of files knows what stands at each place. A path leads from a directory to a place: part by
part, through links, and back up at two dots. `Files.locate` follows a path; it fails with the first
obstacle on the way.
-/

namespace RobotHost

/-- Why something cannot be done with a file. -/
inductive FileFault where
  | missing
  | noDevice
  | notPermitted
  | alreadyThere
  | notDirectory
  | isDirectory
  | nameTooLong
  | notEmpty
  | tooManyLinks
  | holdsNul
deriving DecidableEq, Repr

namespace FileFault

def reason : FileFault → String
  | missing => "No such file or directory"
  | noDevice => "No such device or address"
  | notPermitted => "Permission denied"
  | alreadyThere => "File exists"
  | notDirectory => "Not a directory"
  | isDirectory => "Is a directory"
  | nameTooLong => "File name too long"
  | notEmpty => "Directory not empty"
  | tooManyLinks => "Too many levels of symbolic links"
  | holdsNul => "file name contained an unexpected NUL byte"

/-- The number by which a system knows this. -/
def number? : FileFault → Option Nat
  | missing => some 2
  | noDevice => some 6
  | notPermitted => some 13
  | alreadyThere => some 17
  | notDirectory => some 20
  | isDirectory => some 21
  | nameTooLong => some 36
  | notEmpty => some 39
  | tooManyLinks => some 40
  | holdsNul => none

def message (e : FileFault) : String :=
  match e.number? with
  | some n => e.reason ++ " (os error " ++ toString n ++ ")"
  | none => e.reason

end FileFault

/-- A place in a tree: the names on the way to it from the root. -/
abbrev Place := List String

inductive SystemDevice where
  /-- It is empty and keeps nothing. -/
  | null
  /-- It has no end. -/
  | zero
  /-- It has no end and takes nothing. -/
  | full
  /-- The terminal of a process, of which there is none. -/
  | terminal
  /-- What a process has open under this number. -/
  | descriptor (number : Nat)
deriving DecidableEq, Repr

/-- What stands at a place. -/
inductive FileNode where
  | directory
  | link (path : String)
  | data (content : ByteArray)
  /-- A program that can be run. -/
  | program (name : String)
  | device (d : SystemDevice)
deriving Inhabited

structure Files where
  /-- What stands at each place other than the root. -/
  nodes : List (Place × FileNode) := []
  /-- When files were written; those that are not listed are older than all others. -/
  times : List (Place × Nat) := []

namespace Files

def node? (f : Files) (p : Place) : Option FileNode :=
  if p.isEmpty then some .directory else f.nodes.lookup p

def isDirectory (f : Files) (p : Place) : Bool :=
  match f.node? p with
  | some .directory => true
  | _ => false

/-- Puts something at a place. -/
def put (f : Files) (p : Place) (n : FileNode) : Files :=
  { f with nodes := (p, n) :: f.nodes.filter fun e => e.1 ≠ p }

/-- Takes away what stands at a place. -/
def remove (f : Files) (p : Place) : Files :=
  { f with
    nodes := f.nodes.filter fun e => e.1 ≠ p
    times := f.times.filter fun e => e.1 ≠ p }

/-- Notes when a file was written. -/
def touch (f : Files) (p : Place) (time : Nat) : Files :=
  { f with times := (p, time) :: f.times.filter fun e => e.1 ≠ p }

/-- When a file was written. -/
def time (f : Files) (p : Place) : Nat := (f.times.lookup p).getD 0

/-- The names in a directory. -/
def names (f : Files) (p : Place) : List String :=
  f.nodes.filterMap fun e => if e.1.dropLast = p then e.1.getLast? else none

/-- The longest name, in bytes. -/
def maxName : Nat := 255

/-- A path of this many bytes is too long. -/
def maxPath : Nat := 4096

/-- How many links a path may lead through. -/
def maxLinks : Nat := 40

/-- Where a path begins that is followed from a directory. -/
def start (directory : Place) (path : String) : Place :=
  if path.startsWith "/" then [] else directory

/-- Follows the parts of a path. -/
def follow (f : Files) (links : Nat) (p : Place) : (parts : List String) → Except FileFault Place
  | [] => .ok p
  | part :: rest =>
    if !f.isDirectory p then .error .notDirectory
    else if part = "" || part = "." then f.follow links p rest
    else if part = ".." then f.follow links p.dropLast rest
    else if maxName < part.utf8ByteSize then .error .nameTooLong
    else
      match f.node? (p ++ [part]) with
      | none => .error .missing
      | some (.link path) =>
        match links with
        | 0 => .error .tooManyLinks
        | links + 1 => f.follow links (start p path) (path.splitOn "/" ++ rest)
      | some _ => f.follow links (p ++ [part]) rest
termination_by parts => (links, parts.length)

/-- The place that a path leads to from a directory. -/
def locate (f : Files) (directory : Place) (path : String) : Except FileFault Place :=
  if path.isEmpty then .error .missing
  else if path.toList.contains '\x00' then .error .holdsNul
  else if maxPath ≤ path.utf8ByteSize then .error .nameTooLong
  else f.follow maxLinks (start directory path) (path.splitOn "/")

/-- What stands where a path leads to. -/
def find (f : Files) (directory : Place) (path : String) : Except FileFault FileNode := do
  match f.node? (← f.locate directory path) with
  | some n => return n
  | none => throw .missing

/-- The place of what a path leads to, where a link at its end is not followed. -/
def locateLink (f : Files) (directory : Place) (path : String) : Except FileFault Place := do
  let parts := path.splitOn "/"
  let last := parts.getLast?.getD ""
  if last ∈ ["", ".", ".."] then f.locate directory path
  else
    let parent ← f.follow maxLinks (start directory path) parts.dropLast
    if !f.isDirectory parent then throw .notDirectory
    else if maxName < last.utf8ByteSize then throw .nameTooLong
    else if (f.node? (parent ++ [last])).isNone then throw .missing
    else return parent ++ [last]

/-- The directory that a path leads to. -/
def locateDirectory (f : Files) (directory : Place) (path : String) : Except FileFault Place := do
  let p ← f.locate directory path
  if f.isDirectory p then return p else throw .notDirectory

/-- What a program looks like to those who read it. -/
def programBytes : ByteArray := ⟨#[0x7f, 0x45, 0x4c, 0x46, 0xff]⟩

/-- The content of the file that a path leads to; devices have none. -/
def read (f : Files) (directory : Place) (path : String) : Except FileFault ByteArray := do
  match ← f.find directory path with
  | .data content => return content
  | .program _ => return programBytes
  | .directory => throw .isDirectory
  | .link _ => throw .missing
  | .device .terminal => throw .noDevice
  | .device _ => return .empty

/-- The name of the program that a path leads to. -/
def program (f : Files) (directory : Place) (path : String) : Except FileFault String := do
  match ← f.find directory path with
  | .program name => return name
  | _ => throw .notPermitted

/-- The place of a file that is to be written, with the directory that will hold it. -/
def locateNew (f : Files) (directory : Place) (path : String) : Except FileFault Place := do
  match f.locate directory path with
  | .ok p => if f.isDirectory p then throw .isDirectory else return p
  | .error .missing =>
    let parts := path.splitOn "/"
    let name := parts.getLast?.getD ""
    if name = "" then throw .missing
    let parent ← f.follow maxLinks (start directory path) parts.dropLast
    if f.isDirectory parent then return parent ++ [name] else throw .notDirectory
  | .error e => throw e

/-- Searches directories in turn for a program. Where it is forbidden to run what is found, the
search goes on; so it does where there is nothing. -/
def search (f : Files) (directory : Place) (name : String) : (directories : List String) →
    (forbidden : Bool) → Except FileFault String
  | [], forbidden => .error (if forbidden then .notPermitted else .missing)
  | d :: rest, forbidden =>
    match f.program directory (d ++ "/" ++ name) with
    | .ok program => .ok program
    | .error .notPermitted => f.search directory name rest true
    | .error .missing | .error .notDirectory => f.search directory name rest forbidden
    | .error e => .error e

end Files

end RobotHost
