/-!
# Numbered objects

Objects that are shared and change in place are kept in tables, one for each sort, and known by
their number. A `Ref` is such a number, marked with its sort, so that a number of one table is
never looked up in another. Objects are numbered in the order of their creation and are never
taken out, so that a number always means the same object.
-/

namespace RobotHost

/-- The sorts of shared objects. -/
inductive Stored where
  /-- A driver instance. -/
  | driver
  /-- A handle to a driver that can be exchanged. -/
  | proxy
  /-- A handle to a pin of a board. -/
  | pinProxy
  /-- A handle to a board and to its pins. -/
  | boardProxy
  /-- A handle to a remote robot. -/
  | remote
  /-- A robot that answers calls of others. -/
  | robot
  /-- A managed process. -/
  | process
deriving DecidableEq, Repr

/-- The number of an object of a sort. -/
structure Ref (s : Stored) where
  index : Nat
deriving DecidableEq, Repr

/-- The objects of a sort, in the order of their numbers. -/
structure Table (s : Stored) (α : Type) where
  rows : List α := []

namespace Table

variable {s : Stored} {α : Type}

def size (t : Table s α) : Nat := t.rows.length

def get? (t : Table s α) (r : Ref s) : Option α := t.rows[r.index]?

/-- The number of the object that is put in next. -/
def next (t : Table s α) : Ref s := ⟨t.rows.length⟩

/-- Puts in an object under the next number. -/
def push (t : Table s α) (x : α) : Table s α := ⟨t.rows ++ [x]⟩

/-- Changes an object. -/
def modify (t : Table s α) (r : Ref s) (f : α → α) : Table s α := ⟨t.rows.modify r.index f⟩

/-- Writes an object over the one of this number. -/
def set (t : Table s α) (r : Ref s) (x : α) : Table s α := t.modify r fun _ => x

/-! ## One lemma per operation -/

theorem get?_push (t : Table s α) (r : Ref s) (x : α) :
    (t.push x).get? r = if r = t.next then some x else t.get? r := by
  obtain ⟨i⟩ := r
  simp only [get?, push, next, Ref.mk.injEq, List.getElem?_append]
  by_cases hi : i < t.rows.length
  · have hne : i ≠ t.rows.length := Nat.ne_of_lt hi
    simp [hi, hne]
  · by_cases heq : i = t.rows.length
    · simp [heq]
    · have hle : t.rows.length ≤ i := Nat.le_of_not_lt hi
      have hsub : i - t.rows.length ≠ 0 := by omega
      simp [hi, heq, hsub]

theorem get?_next (t : Table s α) : t.get? t.next = none := by
  simp [get?, next]

theorem get?_modify (t : Table s α) (r other : Ref s) (f : α → α) :
    (t.modify r f).get? other = if r = other then (t.get? other).map f else t.get? other := by
  obtain ⟨i⟩ := r
  obtain ⟨j⟩ := other
  simp only [get?, modify, Ref.mk.injEq, List.getElem?_modify]
  split <;> simp

theorem get?_set (t : Table s α) (r other : Ref s) (x : α) :
    (t.set r x).get? other = if r = other then (t.get? other).map fun _ => x else t.get? other :=
  get?_modify t r other _

@[simp]
theorem size_push (t : Table s α) (x : α) : (t.push x).size = t.size + 1 := by
  simp [size, push]

@[simp]
theorem size_modify (t : Table s α) (r : Ref s) (f : α → α) : (t.modify r f).size = t.size := by
  simp [size, modify]

end Table

end RobotHost
