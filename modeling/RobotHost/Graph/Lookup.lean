import RobotHost.World.Basic

/-!
# Finding parts by name

A name is looked for among a graph's own parts first, and then in its remote robots one after the
other, in ascending order of their names. A robot behind a connection is searched in the same way.
A remote that qualifies names knows the parts behind it as `<remote>.<name>` only.

A listing holds the graph's own names first and then those of its remotes, each name once.
-/

namespace RobotHost

/-- What follows a text at the start of another, if it stands there. -/
def afterLead? : (lead text : List Char) → Option (List Char)
  | [], text => some text
  | _ :: _, [] => none
  | c :: lead, d :: text => if c = d then afterLead? lead text else none

theorem afterLead?_eq_some_iff {lead text rest : List Char} :
    afterLead? lead text = some rest ↔ text = lead ++ rest := by
  induction lead generalizing text with
  | nil => simp [afterLead?]
  | cons c lead ih =>
    cases text with
    | nil => simp [afterLead?]
    | cons d text =>
      by_cases h : c = d
      · simp [afterLead?, h, ih]
      · have h' : d ≠ c := fun e => h e.symm
        simp [afterLead?, h, h']

namespace RemoteConfig

/-- The name that a part of the remote goes by outside. -/
def outerName (c : RemoteConfig) (name : String) : String :=
  if c.qualified then c.name ++ "." ++ name else name

/-- The name that the remote itself has for a part, if the outer name can be one of its parts. -/
def innerName? (c : RemoteConfig) (name : String) : Option String :=
  if c.qualified then (afterLead? (c.name ++ ".").toList name.toList).map String.ofList
  else some name

/-- A remote has an inner name exactly for the names that its parts go by. -/
theorem innerName?_eq_some_iff (c : RemoteConfig) {name inner : String} :
    c.innerName? name = some inner ↔ name = c.outerName inner := by
  unfold innerName? outerName
  split
  · simp only [Option.map_eq_some_iff, afterLead?_eq_some_iff]
    constructor
    · rintro ⟨rest, hrest, rfl⟩
      rw [← String.toList_inj, hrest]
      simp
    · rintro rfl
      exact ⟨inner.toList, String.toList_append, String.ofList_toList⟩
  · simp

end RemoteConfig

namespace Graph

/-- Finds a part, given how to search a remote. -/
def findVia? (k : Kind) (search : Ref .remote → Option k.Handle) (g : Graph) (name : String) :
    Option k.Handle :=
  ((g.entries k).get? name).or (g.remotes.values.findSome? search)

/-- Lists names, given which are a graph's own and how to list a remote. -/
def namesVia (own : Graph → List String) (list : Ref .remote → List String) (g : Graph) :
    List String :=
  (own g ++ g.remotes.values.flatMap list).eraseDups

end Graph

namespace World

/-! ## Behind connections -/

/-- Finds a part behind a connection, no further than `depth` connections away. -/
def findIn? (w : World) (k : Kind) : (depth : Nat) → Connection → String → Option k.Handle
  | 0, _, _ => none
  | depth + 1, .robot r, name => do
    let g ← w.robots.get? r
    g.findVia? k (fun remote => w.findIn? k depth (.remote remote) name) name
  | depth + 1, .remote r, name => do
    let remote ← w.remotes.get? r
    let inner ← remote.config.innerName? name
    w.findIn? k depth remote.connection inner

/-- Lists names behind a connection, no further than `depth` connections away. -/
def namesIn (w : World) (own : Graph → List String) : (depth : Nat) → Connection → List String
  | 0, _ => []
  | depth + 1, .robot r =>
    match w.robots.get? r with
    | some g => g.namesVia own fun remote => w.namesIn own depth (.remote remote)
    | none => []
  | depth + 1, .remote r =>
    match w.remotes.get? r with
    | some remote => (w.namesIn own depth remote.connection).map remote.config.outerName
    | none => []

end World

/-! ## In graphs -/

namespace Graph

/-- Finds a part by kind and name. -/
def find? (g : Graph) (w : World) (k : Kind) (name : String) : Option k.Handle :=
  g.findVia? k (fun remote => w.findIn? k (w.reach name) (.remote remote) name) name

/-- Lists names, given which are a graph's own. -/
def list (g : Graph) (w : World) (own : Graph → List String) : List String :=
  g.namesVia own fun remote => w.namesIn own w.depth (.remote remote)

/-- A graph's own names of a kind. -/
def ownNames (k : Kind) (g : Graph) : List String := (g.entries k).names

/-- A graph's own names of functions. -/
def ownFunctions (g : Graph) : List String := g.functions.names

/-- The names of the parts of a kind that can be found. -/
def names (g : Graph) (w : World) (k : Kind) : List String := g.list w (ownNames k)

/-- The names of the functions that can be found. -/
def functionNames (g : Graph) (w : World) : List String := g.list w ownFunctions

end Graph

/-! ## Through connections -/

namespace Connection

/-- Finds a part of the robot at the other end. -/
def find? (c : Connection) (w : World) (k : Kind) (name : String) : Option k.Handle :=
  w.findIn? k (w.reach name) c name

/-- The names of the parts of a kind at the other end. -/
def names (c : Connection) (w : World) (k : Kind) : List String :=
  w.namesIn (Graph.ownNames k) w.depth c

/-- The names of the functions at the other end. -/
def functionNames (c : Connection) (w : World) : List String :=
  w.namesIn Graph.ownFunctions w.depth c

end Connection

end RobotHost
