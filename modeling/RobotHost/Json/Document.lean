import RobotHost.Json.Basic

/-!
# Documents

A `Document` is what a text says before it is known what the text should mean. It differs from a
`Json` value in what only matters while reading:

* keys may repeat, and stand in the order of the text;
* `unfit` is a value that is well formed but has no meaning of its own: a number out of range, an
  escape that names no character, a container nested too deep. It can be skipped but not used;
* `broken` stands where the text stops being well formed. A list or an object may be broken after
  its last element instead.

So a reader that walks a document from its start meets the faults of the text in the order in which
they stand there.
-/

namespace RobotHost

/-- How a list or object ends. -/
inductive Ending where
  /-- With its bracket; elements that nobody asked for are a fault. -/
  | strict
  /-- With its bracket; elements that nobody asked for are left out. -/
  | lenient
  /-- The text is malformed after the last element. -/
  | broken
deriving DecidableEq, Repr

inductive Document where
  | null
  | bool (b : Bool)
  | int (n : Int)
  | float (x : Float)
  | string (s : String)
  | array (items : List Document) (ending : Ending)
  | object (fields : List (Option String × Document)) (ending : Ending)
  | unfit
  | broken
deriving Inhabited

namespace Document

mutual

/-- Whether a value can be skipped: nothing in it is malformed. -/
def skippable : Document → Bool
  | broken => false
  | array items ending => ending ≠ .broken && skippableItems items
  | object fields ending => ending ≠ .broken && skippableFields fields
  | _ => true

def skippableItems : List Document → Bool
  | [] => true
  | item :: rest => item.skippable && skippableItems rest

def skippableFields : List (Option String × Document) → Bool
  | [] => true
  | (_, value) :: rest => value.skippable && skippableFields rest

end

end Document

namespace Json

mutual

/-- The document that says just this value. -/
def toDocument : Json → Document
  | null => .null
  | bool b => .bool b
  | int n => .int n
  | float x => .float x
  | string s => .string s
  | array items => .array (itemsToDocument items) .strict
  | object members => .object (membersToDocument members) .strict

def itemsToDocument : List Json → List Document
  | [] => []
  | item :: rest => item.toDocument :: itemsToDocument rest

def membersToDocument : List (String × Json) → List (Option String × Document)
  | [] => []
  | (k, v) :: rest => (some k, v.toDocument) :: membersToDocument rest

end

theorem itemsToDocument_eq_map (items : List Json) :
    itemsToDocument items = items.map toDocument := by
  induction items with
  | nil => rfl
  | cons item rest ih => simp [itemsToDocument, ih]

theorem membersToDocument_eq_map (members : List (String × Json)) :
    membersToDocument members = members.map fun m => (some m.1, m.2.toDocument) := by
  induction members with
  | nil => rfl
  | cons m rest ih =>
    obtain ⟨k, v⟩ := m
    simp [membersToDocument, ih]

end Json

end RobotHost
