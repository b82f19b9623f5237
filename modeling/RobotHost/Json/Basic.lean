import RobotHost.NameMap

/-!
# JSON values

A `Json` tree keeps whole numbers and binary64 numbers apart. Two trees may differ in the order of
an object's members, or repeat a key, and still mean the same; a *canonical* tree lists the members
of each object in ascending order of their keys and holds no infinite number and no NaN. An
`Attribute` is a canonical tree, so that equal attributes are equal values.
-/

namespace RobotHost

inductive Json where
  | null
  | bool (b : Bool)
  | int (n : Int)
  | float (x : Float)
  | string (s : String)
  | array (items : List Json)
  | object (members : List (String × Json))
deriving Inhabited

namespace Json

/-! ## Canonical trees -/

mutual

/-- Objects list each key once, in ascending order, and numbers are finite. -/
def Canonical : Json → Prop
  | null | bool _ | int _ | string _ => True
  | float x => x.isFinite = true
  | array items => CanonicalItems items
  | object members => Ascending members ∧ CanonicalMembers members

def CanonicalItems : List Json → Prop
  | [] => True
  | item :: rest => item.Canonical ∧ CanonicalItems rest

def CanonicalMembers : List (String × Json) → Prop
  | [] => True
  | (_, value) :: rest => value.Canonical ∧ CanonicalMembers rest

end

theorem canonicalMembers_iff {members : List (String × Json)} :
    CanonicalMembers members ↔ ∀ m ∈ members, m.2.Canonical := by
  induction members with
  | nil => simp [CanonicalMembers]
  | cons m rest ih =>
    obtain ⟨k, v⟩ := m
    simp [CanonicalMembers, ih]

/-! ## Parts of a value -/

/-- The text of a string value. -/
def asString? : Json → Option String
  | string s => some s
  | _ => none

/-- The truth value of a boolean value. -/
def asBool? : Json → Option Bool
  | bool b => some b
  | _ => none

/-- The number of a whole-number value that fits in 64 bits with sign. -/
def asInt64? : Json → Option Int
  | int n => if -(Nat.pow 2 63) ≤ n ∧ n < Nat.pow 2 63 then some n else none
  | _ => none

/-- A binary64 number as a value; infinities and NaN become `null`. -/
def ofFloat (x : Float) : Json := if x.isFinite then float x else null

theorem canonical_ofFloat (x : Float) : (ofFloat x).Canonical := by
  unfold ofFloat
  split
  · rename_i h
    exact h
  · exact True.intro

end Json

/-! ## Attributes -/

/-- A canonical JSON value. -/
structure Attribute where
  json : Json
  canonical : json.Canonical

/-- Free-form settings by name. -/
abbrev Attributes := NameMap Attribute

namespace Attribute

@[ext]
theorem ext {a b : Attribute} (h : a.json = b.json) : a = b := by
  cases a
  cases b
  cases h
  rfl

end Attribute

end RobotHost
