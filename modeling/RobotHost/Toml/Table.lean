import RobotHost.Toml.Scalar

/-!
# TOML: tables

How the lines of a TOML text put a tree of tables together. A table is *implicit* while only tables
below it were named, and *dotted* if it came from a key with dots; both decide what may still be
written into it. A value, once written, is never extended.
-/

namespace RobotHost.Toml

mutual

/-- What stands under a key. -/
inductive Node where
  | value (d : Document)
  | table (t : Table)
  /-- A list of tables that headers extend. -/
  | tables (ts : List Table)

inductive Table where
  | mk (implicit : Bool) (dotted : Bool) (entries : List (String × Node))

end

namespace Table

def implicit : Table → Bool
  | mk i _ _ => i

def dotted : Table → Bool
  | mk _ d _ => d

def entries : Table → List (String × Node)
  | mk _ _ es => es

/-- A table that a header opens. -/
def empty : Table := mk false false []

def find? (t : Table) (key : String) : Option Node := Entries.find? t.entries key

/-- Writes an entry over one of the same key, or at the end. -/
def put (t : Table) (key : String) (n : Node) : Table :=
  mk t.implicit t.dotted (t.entries.filter (fun e => e.1 ≠ key) ++ [(key, n)])

def remove (t : Table) (key : String) : Table :=
  mk t.implicit t.dotted (t.entries.filter fun e => e.1 ≠ key)

/-- Changes the table at the end of a path. Tables that are not there yet are made on the way, and
a list of tables is entered at its last one. Over dots, only implicit tables are entered. -/
def change (overDots : Bool) (f : Table → Option Table) : List String → Table → Option Table
  | [], t => f t
  | key :: rest, t =>
    match t.find? key with
    | none => (change overDots f rest (mk true overDots [])).map fun c => t.put key (.table c)
    | some (.value _) => none
    | some (.table c) =>
      if overDots ∧ ¬c.implicit then none
      else (change overDots f rest c).map fun c => t.put key (.table c)
    | some (.tables ts) =>
      match ts.reverse with
      | [] => none
      | last :: before =>
        (change overDots f rest last).map fun c => t.put key (.tables (before.reverse ++ [c]))

/-- Writes a value under a new key with dots. The table it goes to must be of the kind that such
a key makes. -/
def assign (path : List String) (key : String) (d : Document) (t : Table) : Option Table :=
  change true (fun t =>
    if t.dotted = path.isEmpty then none
    else if (t.find? key).isSome then none
    else some (t.put key (.value d))) path t

mutual

/-- The object that a table means. -/
def toDocument : Table → Document
  | mk _ _ entries => .object (entriesToDocument entries) .strict

def entriesToDocument : List (String × Node) → List (Option String × Document)
  | [] => []
  | (k, .value d) :: rest => (some k, d) :: entriesToDocument rest
  | (k, .table t) :: rest => (some k, t.toDocument) :: entriesToDocument rest
  | (k, .tables ts) :: rest => (some k, .array (tablesToDocument ts) .lenient) :: entriesToDocument rest

def tablesToDocument : List Table → List Document
  | [] => []
  | t :: rest => t.toDocument :: tablesToDocument rest

end

end Table

/-! ## Sections -/

/-- A text as far as it was read: the finished tables, and the table that lines are written into,
with its place. -/
structure Outline where
  root : Table := .empty
  current : Table := .empty
  path : List String := []
  /-- Whether the open table is one more of a list of tables. -/
  listed : Bool := false

namespace Outline

/-- Puts the open table in its place. -/
def close (l : Outline) : Option Table :=
  match l.path.reverse with
  | [] => some l.current
  | key :: before =>
    Table.change false (fun t =>
      match l.listed, t.find? key with
      | true, none => some (t.put key (.tables [l.current]))
      | true, some (.tables ts) => some (t.put key (.tables (ts ++ [l.current])))
      | false, none => some (t.put key (.table l.current))
      | _, _ => none) before.reverse l.root

/-- Takes out the implicit table of this key, so that a header can open it. -/
def takeImplicit (key : String) (t : Table) : Option (Table × Table) :=
  match t.find? key with
  | none => some (t, .empty)
  | some (.table (.mk true false entries)) => some (t.remove key, .mk false false entries)
  | _ => none

/-- The table at the end of a path, if the way to it can be gone. -/
def reach? (path : List String) (t : Table) : Option Table :=
  match path with
  | [] => some t
  | key :: rest =>
    match t.find? key with
    | none => some (.mk true false [])
    | some (.value _) => none
    | some (.table c) => reach? rest c
    | some (.tables ts) =>
      match ts.getLast? with
      | none => none
      | some c => reach? rest c

/-- Opens the table of a header. -/
def openTable (path : List String) (l : Outline) : Option Outline := do
  let root ← l.close
  match path.reverse with
  | [] => none
  | key :: before =>
    let parent ← reach? before.reverse root
    let (_, opened) ← takeImplicit key parent
    let root ← Table.change false (fun t => (takeImplicit key t).map Prod.fst) before.reverse root
    return { root := root, current := opened, path := path, listed := false }

/-- Opens one more table of the list of tables of a header. -/
def openListed (path : List String) (l : Outline) : Option Outline := do
  let root ← l.close
  match path.reverse with
  | [] => none
  | key :: before =>
    let root ← Table.change false (fun t =>
      match t.find? key with
      | none => some t
      | some (.tables _) => some t
      | _ => none) before.reverse root
    return { root := root, current := .empty, path := path, listed := true }

/-- Writes a line into the open table. -/
def assign (path : List String) (key : String) (d : Document) (l : Outline) : Option Outline :=
  (l.current.assign path key d).map fun t => { l with current := t }

end Outline

end RobotHost.Toml
