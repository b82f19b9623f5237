/-!
# Tables keyed by name

A `NameMap α` lists its entries in ascending order of their names, each name once. Names are
compared character by character, by code point.

The ascending order is part of the type, so two tables that answer every look-up alike are equal
(`NameMap.ext_get?`). What writing and dropping do to `get?` is said by one lemma each.
-/

namespace RobotHost

/-! ## The order of names -/

theorem name_lt_trichotomy (a b : String) : a < b ∨ a = b ∨ b < a := by
  by_cases hab : a < b
  · exact Or.inl hab
  by_cases hba : b < a
  · exact Or.inr (Or.inr hba)
  exact Or.inr (Or.inl (String.le_antisymm (String.not_lt.mp hba) (String.not_lt.mp hab)))

theorem name_ne_of_lt {a b : String} (h : a < b) : a ≠ b :=
  fun hab => String.lt_irrefl b (hab ▸ h)

theorem name_lt_asymm {a b : String} (h : a < b) : ¬b < a :=
  fun hba => String.lt_irrefl a (String.lt_trans h hba)

/-! ## Sorted entry lists -/

/-- The entry lists of tables: names strictly ascend. -/
def Ascending {α : Type} (entries : List (String × α)) : Prop :=
  entries.Pairwise fun a b => a.1 < b.1

namespace Entries

variable {α β : Type}

/-- The value of the first entry with this name. -/
def find? : List (String × α) → String → Option α
  | [], _ => none
  | (k, v) :: rest, name => if k = name then some v else find? rest name

/-- Writes one entry at its place, over an entry of the same name. -/
def insert : List (String × α) → String → α → List (String × α)
  | [], name, x => [(name, x)]
  | (k, v) :: rest, name, x =>
    if name < k then (name, x) :: (k, v) :: rest
    else if name = k then (name, x) :: rest
    else (k, v) :: insert rest name x

/-- Drops the entries with this name. -/
def erase (entries : List (String × α)) (name : String) : List (String × α) :=
  entries.filter fun e => e.1 ≠ name

theorem ascending_cons {k : String} {v : α} {rest : List (String × α)} :
    Ascending ((k, v) :: rest) ↔ (∀ e ∈ rest, k < e.1) ∧ Ascending rest := by
  simp [Ascending, List.pairwise_cons]

theorem find?_eq_none_of_forall_lt {entries : List (String × α)} {name : String}
    (h : ∀ e ∈ entries, name < e.1) : find? entries name = none := by
  induction entries with
  | nil => rfl
  | cons e rest ih =>
    obtain ⟨k, v⟩ := e
    have hk : name < k := h (k, v) List.mem_cons_self
    rw [find?, if_neg fun hkn : k = name => String.lt_irrefl k (hkn ▸ hk)]
    exact ih fun e he => h e (List.mem_cons_of_mem _ he)

theorem mem_insert {entries : List (String × α)} {name : String} {x : α} {e : String × α}
    (h : e ∈ insert entries name x) : e = (name, x) ∨ e ∈ entries := by
  induction entries with
  | nil => exact Or.inl (List.mem_singleton.mp h)
  | cons head rest ih =>
    obtain ⟨k, v⟩ := head
    simp only [insert] at h
    split at h
    · exact List.mem_cons.mp h
    · split at h
      · rcases List.mem_cons.mp h with h | h
        · exact Or.inl h
        · exact Or.inr (List.mem_cons_of_mem _ h)
      · rcases List.mem_cons.mp h with h | h
        · exact Or.inr (h ▸ List.mem_cons_self)
        · rcases ih h with h | h
          · exact Or.inl h
          · exact Or.inr (List.mem_cons_of_mem _ h)

theorem ascending_insert {entries : List (String × α)} (h : Ascending entries) (name : String)
    (x : α) : Ascending (insert entries name x) := by
  induction entries with
  | nil => simp [insert, Ascending]
  | cons head rest ih =>
    obtain ⟨k, v⟩ := head
    obtain ⟨hlt, hrest⟩ := ascending_cons.mp h
    simp only [insert]
    split
    · rename_i hnk
      refine ascending_cons.mpr ⟨fun e he => ?_, h⟩
      rcases List.mem_cons.mp he with rfl | he
      · exact hnk
      · exact String.lt_trans hnk (hlt e he)
    · split
      · rename_i hnk
        exact ascending_cons.mpr ⟨fun e he => hnk ▸ hlt e he, hrest⟩
      · rename_i hnk hne
        refine ascending_cons.mpr ⟨fun e he => ?_, ih hrest⟩
        rcases mem_insert he with rfl | he
        · rcases name_lt_trichotomy name k with hlt' | heq | hlt'
          · exact absurd hlt' hnk
          · exact absurd heq hne
          · exact hlt'
        · exact hlt e he

theorem ascending_erase {entries : List (String × α)} (h : Ascending entries) (name : String) :
    Ascending (erase entries name) :=
  List.Pairwise.filter _ h

theorem find?_insert (entries : List (String × α)) (name other : String) (x : α) :
    find? (insert entries name x) other = if name = other then some x else find? entries other := by
  induction entries with
  | nil => rfl
  | cons head rest ih =>
    obtain ⟨k, v⟩ := head
    simp only [insert]
    split
    · rfl
    · split
      · rename_i hnk
        subst hnk
        simp only [find?]
        split <;> rfl
      · rename_i hne
        simp only [find?, ih]
        by_cases hko : k = other
        · have hno : ¬name = other := fun h => hne (h.trans hko.symm)
          simp [hko, hno]
        · simp [hko]

theorem find?_erase (entries : List (String × α)) (name other : String) :
    find? (erase entries name) other = if name = other then none else find? entries other := by
  induction entries with
  | nil => simp [erase, find?]
  | cons head rest ih =>
    obtain ⟨k, v⟩ := head
    by_cases hk : k = name
    · subst hk
      have : erase ((k, v) :: rest) k = erase rest k := by simp [erase]
      rw [this, ih]
      by_cases hko : k = other <;> simp [find?, hko]
    · have : erase ((k, v) :: rest) name = (k, v) :: erase rest name := by simp [erase, hk]
      rw [this]
      simp only [find?, ih]
      by_cases hko : k = other
      · have hno : ¬name = other := fun h => hk (hko.trans h.symm)
        simp [hko, hno]
      · simp [hko]

theorem find?_eq_some_iff {entries : List (String × α)} (h : Ascending entries) {name : String}
    {x : α} : find? entries name = some x ↔ (name, x) ∈ entries := by
  induction entries with
  | nil => simp [find?]
  | cons head rest ih =>
    obtain ⟨k, v⟩ := head
    obtain ⟨hlt, hrest⟩ := ascending_cons.mp h
    simp only [find?, List.mem_cons, Prod.mk.injEq]
    by_cases hk : k = name
    · subst hk
      simp only [if_true, Option.some.injEq, true_and]
      constructor
      · intro hv
        exact Or.inl hv.symm
      · rintro (hv | hmem)
        · exact hv.symm
        · exact absurd (hlt _ hmem) (String.lt_irrefl k)
    · have hk' : ¬name = k := fun h => hk h.symm
      simp [hk, hk', ih hrest]

theorem ext {left right : List (String × α)} (hl : Ascending left) (hr : Ascending right)
    (h : ∀ name, find? left name = find? right name) : left = right := by
  induction left generalizing right with
  | nil =>
    cases right with
    | nil => rfl
    | cons e rest => simpa [find?] using h e.1
  | cons e rest ih =>
    obtain ⟨k, v⟩ := e
    obtain ⟨hlt, hrest⟩ := ascending_cons.mp hl
    cases right with
    | nil => simpa [find?] using h k
    | cons e' rest' =>
      obtain ⟨k', v'⟩ := e'
      obtain ⟨hlt', hrest'⟩ := ascending_cons.mp hr
      have hkk : k = k' := by
        rcases name_lt_trichotomy k k' with hkk | hkk | hkk
        · have hnone : find? ((k', v') :: rest') k = none := by
            refine find?_eq_none_of_forall_lt fun e he => ?_
            rcases List.mem_cons.mp he with rfl | he
            · exact hkk
            · exact String.lt_trans hkk (hlt' e he)
          have := h k
          rw [hnone] at this
          simp [find?] at this
        · exact hkk
        · have hnone : find? ((k, v) :: rest) k' = none := by
            refine find?_eq_none_of_forall_lt fun e he => ?_
            rcases List.mem_cons.mp he with rfl | he
            · exact hkk
            · exact String.lt_trans hkk (hlt e he)
          have := h k'
          rw [hnone] at this
          simp [find?] at this
      subst hkk
      have hv : v = v' := by simpa [find?] using h k
      subst hv
      refine congrArg _ (ih hrest hrest' fun name => ?_)
      by_cases hk : k = name
      · subst hk
        rw [find?_eq_none_of_forall_lt hlt, find?_eq_none_of_forall_lt hlt']
      · simpa [find?, hk] using h name

/-- A name above all others is written at the end. -/
theorem insert_eq_append {entries : List (String × α)} {name : String} {x : α}
    (h : ∀ e ∈ entries, e.1 < name) : insert entries name x = entries ++ [(name, x)] := by
  induction entries with
  | nil => rfl
  | cons e rest ih =>
    obtain ⟨k, v⟩ := e
    have hk : k < name := h (k, v) List.mem_cons_self
    rw [insert, if_neg (name_lt_asymm hk), if_neg (name_ne_of_lt hk).symm,
      ih fun e he => h e (List.mem_cons_of_mem _ he)]
    rfl

theorem insert_comm_of_lt {name other : String} (h : name < other) (x y : α)
    (entries : List (String × α)) :
    insert (insert entries name x) other y = insert (insert entries other y) name x := by
  induction entries with
  | nil => simp [insert, h, name_lt_asymm h, (name_ne_of_lt h).symm]
  | cons head rest ih =>
    obtain ⟨k, v⟩ := head
    -- the place of the lesser name is before the first entry, at it or after it
    rcases name_lt_trichotomy name k with hk | rfl | hk
    · grind [insert, name_lt_asymm, name_ne_of_lt]
    · grind [insert, name_lt_asymm, name_ne_of_lt]
    · have hk' : k < other := String.lt_trans hk h
      grind [insert, name_lt_asymm, name_ne_of_lt]

/-- Entries of different names may be written in either order. -/
theorem insert_comm {name other : String} (h : name ≠ other) (x y : α)
    (entries : List (String × α)) :
    insert (insert entries name x) other y = insert (insert entries other y) name x := by
  rcases name_lt_trichotomy name other with hlt | heq | hlt
  · exact insert_comm_of_lt hlt x y entries
  · exact absurd heq h
  · exact (insert_comm_of_lt hlt y x entries).symm

/-- Applies a function to the values. -/
def map (f : α → β) (entries : List (String × α)) : List (String × β) :=
  entries.map fun e => (e.1, f e.2)

theorem ascending_map (f : α → β) {entries : List (String × α)} (h : Ascending entries) :
    Ascending (map f entries) :=
  List.pairwise_map.mpr h

end Entries

/-! ## The table -/

/-- A table from names to values, listed in ascending order of the names. -/
structure NameMap (α : Type) where
  entries : List (String × α)
  ascending : Ascending entries

/-- A set of names, listed in ascending order. -/
abbrev NameSet := NameMap Unit

namespace NameMap

variable {α β : Type}

def empty : NameMap α := ⟨[], List.Pairwise.nil⟩

instance : EmptyCollection (NameMap α) := ⟨empty⟩

instance : Inhabited (NameMap α) := ⟨empty⟩

def isEmpty (m : NameMap α) : Bool := m.entries.isEmpty

def size (m : NameMap α) : Nat := m.entries.length

/-- The value under a name. -/
def get? (m : NameMap α) (name : String) : Option α := Entries.find? m.entries name

def contains (m : NameMap α) (name : String) : Bool := (m.get? name).isSome

/-- The names, in ascending order. -/
def names (m : NameMap α) : List String := m.entries.map Prod.fst

/-- The values, in ascending order of their names. -/
def values (m : NameMap α) : List α := m.entries.map Prod.snd

/-- Writes a value under a name, over what the name had. -/
def insert (m : NameMap α) (name : String) (x : α) : NameMap α :=
  ⟨Entries.insert m.entries name x, Entries.ascending_insert m.ascending name x⟩

/-- Drops a name. -/
def erase (m : NameMap α) (name : String) : NameMap α :=
  ⟨Entries.erase m.entries name, Entries.ascending_erase m.ascending name⟩

/-- Writes all entries of a list; of two with one name the later stays. -/
def insertAll (m : NameMap α) (entries : List (String × α)) : NameMap α :=
  entries.foldl (fun m e => m.insert e.1 e.2) m

/-- Drops all names of a list. -/
def eraseAll (m : NameMap α) (names : List String) : NameMap α :=
  names.foldl erase m

def ofList (entries : List (String × α)) : NameMap α := empty.insertAll entries

/-- The entries of both tables; where both have a name, `extra`'s entry stays. -/
def override (m extra : NameMap α) : NameMap α := m.insertAll extra.entries

/-- Applies a function to the values. -/
def map (f : α → β) (m : NameMap α) : NameMap β :=
  ⟨Entries.map f m.entries, Entries.ascending_map f m.ascending⟩

/-! ## One lemma per operation -/

theorem ext_get? {m n : NameMap α} (h : ∀ name, m.get? name = n.get? name) : m = n := by
  obtain ⟨es, hes⟩ := m
  obtain ⟨fs, hfs⟩ := n
  have : es = fs := Entries.ext hes hfs h
  subst this
  rfl

@[simp]
theorem get?_empty (name : String) : (empty : NameMap α).get? name = none := rfl

theorem get?_insert (m : NameMap α) (name other : String) (x : α) :
    (m.insert name x).get? other = if name = other then some x else m.get? other :=
  Entries.find?_insert m.entries name other x

@[simp]
theorem get?_insert_self (m : NameMap α) (name : String) (x : α) :
    (m.insert name x).get? name = some x := by
  simp [get?_insert]

theorem insert_comm (m : NameMap α) {name other : String} (h : name ≠ other) (x y : α) :
    (m.insert name x).insert other y = (m.insert other y).insert name x := by
  obtain ⟨entries, hasc⟩ := m
  simp only [insert, Entries.insert_comm h]

theorem get?_erase (m : NameMap α) (name other : String) :
    (m.erase name).get? other = if name = other then none else m.get? other :=
  Entries.find?_erase m.entries name other

theorem get?_eq_some_iff (m : NameMap α) {name : String} {x : α} :
    m.get? name = some x ↔ (name, x) ∈ m.entries :=
  Entries.find?_eq_some_iff m.ascending

theorem mem_names_iff (m : NameMap α) {name : String} :
    name ∈ m.names ↔ ∃ x, m.get? name = some x := by
  simp [names, get?_eq_some_iff]

/-- A name in a set has no value but one, so that sets with the same names are equal. -/
theorem ext_of_mem_names {m n : NameSet} (h : ∀ name, name ∈ m.names ↔ name ∈ n.names) :
    m = n := by
  refine ext_get? fun name => ?_
  have hname := h name
  rw [mem_names_iff, mem_names_iff] at hname
  cases hm : m.get? name with
  | none =>
    cases hn : n.get? name with
    | none => rfl
    | some y =>
      obtain ⟨x, hx⟩ := hname.mpr ⟨y, hn⟩
      rw [hm] at hx
      cases hx
  | some x =>
    obtain ⟨y, hy⟩ := hname.mp ⟨x, hm⟩
    rw [hy]

theorem contains_iff (m : NameMap α) {name : String} :
    m.contains name = true ↔ name ∈ m.names := by
  rw [mem_names_iff, contains, Option.isSome_iff_exists]

theorem get?_eq_none_iff (m : NameMap α) {name : String} :
    m.get? name = none ↔ name ∉ m.names := by
  rw [← contains_iff, contains, Option.not_isSome_iff_eq_none]

theorem mem_values_iff (m : NameMap α) {x : α} :
    x ∈ m.values ↔ ∃ name, m.get? name = some x := by
  simp [values, get?_eq_some_iff]

theorem mem_names_insert (m : NameMap α) {name other : String} {x : α} :
    other ∈ (m.insert name x).names ↔ other = name ∨ other ∈ m.names := by
  simp only [mem_names_iff, get?_insert]
  by_cases h : name = other
  · simp [h]
  · have h' : ¬other = name := fun e => h e.symm
    simp [h, h']

theorem nodup_names (m : NameMap α) : m.names.Nodup :=
  m.ascending.map Prod.fst fun _ _ h => name_ne_of_lt h

theorem get?_eraseAll (m : NameMap α) (names : List String) (other : String) :
    (m.eraseAll names).get? other = if other ∈ names then none else m.get? other := by
  induction names generalizing m with
  | nil => simp [eraseAll]
  | cons name rest ih =>
    have : m.eraseAll (name :: rest) = (m.erase name).eraseAll rest := rfl
    rw [this, ih, get?_erase]
    by_cases hmem : other ∈ rest
    · simp [hmem]
    · by_cases hno : name = other
      · simp [hno]
      · have : ¬other = name := fun h => hno h.symm
        simp [hmem, hno, this]

theorem insertAll_cons (m : NameMap α) (e : String × α) (rest : List (String × α)) :
    m.insertAll (e :: rest) = (m.insert e.1 e.2).insertAll rest := rfl

theorem get?_insertAll_of_ascending (m : NameMap α) {entries : List (String × α)}
    (h : Ascending entries) (other : String) :
    (m.insertAll entries).get? other = (Entries.find? entries other).or (m.get? other) := by
  induction entries generalizing m with
  | nil => simp [insertAll, Entries.find?]
  | cons e rest ih =>
    obtain ⟨k, v⟩ := e
    obtain ⟨hlt, hrest⟩ := Entries.ascending_cons.mp h
    rw [insertAll_cons, ih (m.insert k v) hrest, get?_insert]
    by_cases hk : k = other
    · subst hk
      simp [Entries.find?, Entries.find?_eq_none_of_forall_lt hlt]
    · simp [Entries.find?, hk]

theorem get?_override (m extra : NameMap α) (name : String) :
    (m.override extra).get? name = (extra.get? name).or (m.get? name) :=
  get?_insertAll_of_ascending m extra.ascending name

theorem mem_names_override (m extra : NameMap α) {name : String} :
    name ∈ (m.override extra).names ↔ name ∈ m.names ∨ name ∈ extra.names := by
  simp only [mem_names_iff, get?_override]
  cases extra.get? name with
  | none => simp
  | some x => simp

theorem mem_names_eraseAll (m : NameMap α) (names : List String) {name : String} :
    name ∈ (m.eraseAll names).names ↔ name ∈ m.names ∧ name ∉ names := by
  simp only [mem_names_iff, get?_eraseAll]
  by_cases h : name ∈ names
  · simp [h]
  · simp [h]

theorem mem_names_insertAll (m : NameMap α) {entries : List (String × α)} {name : String} :
    name ∈ (m.insertAll entries).names ↔ name ∈ m.names ∨ name ∈ entries.map Prod.fst := by
  induction entries generalizing m with
  | nil => simp [insertAll]
  | cons e rest ih =>
    rw [insertAll_cons, ih, mem_names_insert, List.map_cons, List.mem_cons, or_assoc,
      or_left_comm]

theorem mem_names_ofList {entries : List (String × α)} {name : String} :
    name ∈ (ofList entries).names ↔ name ∈ entries.map Prod.fst := by
  rw [ofList, mem_names_insertAll]
  exact or_iff_right List.not_mem_nil

@[simp]
theorem ofList_entries (m : NameMap α) : ofList m.entries = m := by
  refine ext_get? fun name => ?_
  rw [ofList, get?_insertAll_of_ascending _ m.ascending, get?_empty, Option.or_none]
  rfl

theorem eq_empty_of_isEmpty {m : NameMap α} (h : m.isEmpty = true) : m = empty := by
  obtain ⟨entries, hasc⟩ := m
  have : entries = [] := List.isEmpty_iff.mp h
  subst this
  rfl

end NameMap

end RobotHost
