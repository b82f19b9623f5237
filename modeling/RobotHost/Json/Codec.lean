import RobotHost.Json.Fault

/-!
# Codecs

A `Codec α` reads values of type `α` from documents and writes them as JSON. Reading a list or an
object goes through it from left to right and ends at the first error.
-/

namespace RobotHost

structure Codec (α : Type) where
  decode : Document → Except ReadError α
  encode : α → Json

namespace Codec

variable {α β : Type}

/-- The value is found again in what it was written as. -/
def Keeps (c : Codec α) (x : α) : Prop := c.decode (c.encode x).toDocument = .ok x

/-! ## Texts, truth values and numbers -/

def string : Codec String where
  decode
    | .string s => .ok s
    | d => .error (d.mismatch .string)
  encode := .string

def bool : Codec Bool where
  decode
    | .bool b => .ok b
    | d => .error (d.mismatch .boolean)
  encode := .bool

/-- Reads a whole number below `2^bits`. -/
def decodeUnsigned (bits : Nat) : Document → Except ReadError Nat
  | .int n =>
    if 0 ≤ n ∧ n.toNat < Nat.pow 2 bits then .ok n.toNat
    else .error (.fault (.invalidValue (.int n) (.unsigned bits)))
  | d => .error (d.mismatch (.unsigned bits))

def uint32 : Codec UInt32 where
  decode d := (decodeUnsigned 32 d).map UInt32.ofNat
  encode n := .int n.toNat

def uint64 : Codec UInt64 where
  decode d := (decodeUnsigned 64 d).map UInt64.ofNat
  encode n := .int n.toNat

/-- Reads a whole number from `-2^(bits - 1)` up to below `2^(bits - 1)`. -/
def decodeSigned (bits : Nat) : Document → Except ReadError Int
  | .int n =>
    if -(Nat.pow 2 (bits - 1)) ≤ n ∧ n < Nat.pow 2 (bits - 1) then .ok n
    else .error (.fault (.invalidValue (.int n) (.signed bits)))
  | d => .error (d.mismatch (.signed bits))

def int32 : Codec Int32 where
  decode d := (decodeSigned 32 d).map Int32.ofInt
  encode n := .int n.toInt

def int64 : Codec Int64 where
  decode d := (decodeSigned 64 d).map Int64.ofInt
  encode n := .int n.toInt

/-- Reads any number; one that is not finite is written as `null`. -/
def float : Codec Float where
  decode
    | .float x => .ok x
    | .int n => .ok (Float.ofInt n)
    | d => .error (d.mismatch .float)
  encode := .ofFloat

@[simp]
theorem string_keeps (s : String) : string.Keeps s := rfl

@[simp]
theorem bool_keeps (b : Bool) : bool.Keeps b := rfl

theorem decodeUnsigned_ofNat {bits n : Nat} (h : n < Nat.pow 2 bits) :
    decodeUnsigned bits (.int n) = .ok n :=
  if_pos ⟨Int.natCast_nonneg n, h⟩

@[simp]
theorem uint32_keeps (n : UInt32) : uint32.Keeps n := by
  have h : n.toNat < Nat.pow 2 32 := n.toNat_lt
  simp [Keeps, uint32, Json.toDocument, decodeUnsigned_ofNat h, Except.map]

@[simp]
theorem uint64_keeps (n : UInt64) : uint64.Keeps n := by
  have h : n.toNat < Nat.pow 2 64 := n.toNat_lt
  simp [Keeps, uint64, Json.toDocument, decodeUnsigned_ofNat h, Except.map]

/-! ## Lists -/

/-- Reads the elements of a list up to its end. -/
def decodeItems (c : Codec α) (ending : Ending) : List Document → Except ReadError (List α)
  | [] => if ending = .broken then .error .malformed else .ok []
  | d :: rest => do
    let x ← c.decode d
    let xs ← decodeItems c ending rest
    return x :: xs

def list (c : Codec α) : Codec (List α) where
  decode
    | .array items ending => decodeItems c ending items
    | d => .error (d.mismatch .sequence)
  encode xs := .array (xs.map c.encode)

theorem decodeItems_map (c : Codec α) {xs : List α} (h : ∀ x ∈ xs, c.Keeps x) :
    decodeItems c .strict ((xs.map c.encode).map Json.toDocument) = .ok xs := by
  induction xs with
  | nil => rfl
  | cons x rest ih =>
    have hx : c.decode (c.encode x).toDocument = .ok x := h x List.mem_cons_self
    have hrest := ih fun y hy => h y (List.mem_cons_of_mem _ hy)
    simp only [List.map_cons, decodeItems, hx, hrest]
    rfl

theorem list_keeps (c : Codec α) {xs : List α} (h : ∀ x ∈ xs, c.Keeps x) : c.list.Keeps xs := by
  simp only [Keeps, list, Json.toDocument, Json.itemsToDocument_eq_map]
  exact decodeItems_map c h

/-! ## Optional values -/

/-- `null` stands for no value. -/
def option (c : Codec α) : Codec (Option α) where
  decode
    | .null => .ok none
    | d => (c.decode d).map some
  encode
    | none => .null
    | some x => c.encode x

/-! ## Converted values -/

/-- Reads and writes values through another form of theirs. -/
def through (c : Codec α) (read : α → β) (write : β → α) : Codec β where
  decode d := (c.decode d).map read
  encode y := c.encode (write y)

theorem through_keeps {c : Codec α} {read : α → β} {write : β → α} {y : β}
    (h : c.Keeps (write y)) (hy : read (write y) = y) : (c.through read write).Keeps y := by
  have h' : c.decode (c.encode (write y)).toDocument = .ok (write y) := h
  simp [Keeps, through, h', Except.map, hy]

end Codec

end RobotHost
