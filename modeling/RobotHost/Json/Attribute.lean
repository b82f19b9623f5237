import RobotHost.Json.Codec

/-!
# Reading free-form values

An attribute may be any JSON value. Reading one orders the members of each object by key, keeps the
later of two members of one name, and keeps `null` for a number that is not finite. So what is read
is canonical (`canonical_decodeJson`), and a canonical value is read back as it was written
(`decodeJson_toDocument`).
-/

namespace RobotHost

namespace Codec

mutual

/-- Reads any value. -/
def decodeJson : Document → Except ReadError Json
  | .null => .ok .null
  | .bool b => .ok (.bool b)
  | .int n => .ok (.int n)
  | .float x => .ok (.ofFloat x)
  | .string s => .ok (.string s)
  | .array items ending => (decodeJsonItems ending items).map .array
  | .object fields ending => (decodeJsonFields ending [] fields).map .object
  | .unfit => .error .malformed
  | .broken => .error .malformed

def decodeJsonItems (ending : Ending) : List Document → Except ReadError (List Json)
  | [] => if ending = .broken then .error .malformed else .ok []
  | d :: rest =>
    match decodeJson d with
    | .error e => .error e
    | .ok x => (decodeJsonItems ending rest).map (x :: ·)

/-- Reads the members of an object; `acc` holds those read so far. -/
def decodeJsonFields (ending : Ending) (acc : List (String × Json)) :
    List (Option String × Document) → Except ReadError (List (String × Json))
  | [] => if ending = .broken then .error .malformed else .ok acc
  | (none, _) :: _ => .error .malformed
  | (some key, d) :: rest =>
    match decodeJson d with
    | .error e => .error e
    | .ok x => decodeJsonFields ending (Entries.insert acc key x) rest

end

/-! ## What is read is canonical -/

private theorem except_map_eq_ok {ε α β : Type} {f : α → β} {r : Except ε α} {y : β}
    (h : r.map f = .ok y) : ∃ x, r = .ok x ∧ f x = y := by
  cases r with
  | error e => simp [Except.map] at h
  | ok x => exact ⟨x, rfl, by simpa [Except.map] using h⟩

theorem canonicalMembers_insert {members : List (String × Json)} {key : String} {x : Json}
    (h : Json.CanonicalMembers members) (hx : x.Canonical) :
    Json.CanonicalMembers (Entries.insert members key x) := by
  rw [Json.canonicalMembers_iff] at h ⊢
  intro m hm
  rcases Entries.mem_insert hm with rfl | hm
  · exact hx
  · exact h m hm

mutual

theorem canonical_decodeJson : (d : Document) → {j : Json} → decodeJson d = .ok j → j.Canonical
  | .null, _, h | .bool _, _, h | .int _, _, h | .string _, _, h => by
    simp only [decodeJson, Except.ok.injEq] at h
    subst h
    exact True.intro
  | .float x, _, h => by
    simp only [decodeJson, Except.ok.injEq] at h
    subst h
    exact Json.canonical_ofFloat x
  | .array items ending, _, h => by
    obtain ⟨xs, hxs, rfl⟩ := except_map_eq_ok (by simpa only [decodeJson] using h)
    exact canonical_decodeJsonItems ending items hxs
  | .object fields ending, _, h => by
    obtain ⟨ms, hms, rfl⟩ := except_map_eq_ok (by simpa only [decodeJson] using h)
    exact canonical_decodeJsonFields ending fields [] List.Pairwise.nil True.intro hms
  | .unfit, _, h => by simp [decodeJson] at h
  | .broken, _, h => by simp [decodeJson] at h

theorem canonical_decodeJsonItems (ending : Ending) : (items : List Document) →
    {xs : List Json} → decodeJsonItems ending items = .ok xs → Json.CanonicalItems xs
  | [], xs, h => by
    simp only [decodeJsonItems] at h
    split at h
    · simp at h
    · simp only [Except.ok.injEq] at h
      subst h
      exact True.intro
  | d :: rest, xs, h => by
    simp only [decodeJsonItems] at h
    split at h
    · simp at h
    · rename_i x hx
      obtain ⟨ys, hys, rfl⟩ := except_map_eq_ok h
      exact ⟨canonical_decodeJson d hx, canonical_decodeJsonItems ending rest hys⟩

theorem canonical_decodeJsonFields (ending : Ending) : (fields : List (Option String × Document)) →
    (acc : List (String × Json)) → Ascending acc → Json.CanonicalMembers acc →
    {ms : List (String × Json)} → decodeJsonFields ending acc fields = .ok ms →
    Ascending ms ∧ Json.CanonicalMembers ms
  | [], acc, hasc, hcan, ms, h => by
    simp only [decodeJsonFields] at h
    split at h
    · simp at h
    · simp only [Except.ok.injEq] at h
      subst h
      exact ⟨hasc, hcan⟩
  | (none, _) :: _, acc, hasc, hcan, ms, h => by simp [decodeJsonFields] at h
  | (some key, d) :: rest, acc, hasc, hcan, ms, h => by
    simp only [decodeJsonFields] at h
    split at h
    · simp at h
    · rename_i x hx
      exact canonical_decodeJsonFields ending rest _ (Entries.ascending_insert hasc key x)
        (canonicalMembers_insert hcan (canonical_decodeJson d hx)) h

end

/-! ## Canonical values are read back -/

mutual

theorem decodeJson_toDocument : (j : Json) → j.Canonical → decodeJson j.toDocument = .ok j
  | .null, _ | .bool _, _ | .int _, _ | .string _, _ => rfl
  | .float x, h => by
    have hx : x.isFinite = true := h
    simp [Json.toDocument, decodeJson, Json.ofFloat, hx]
  | .array items, h => by
    simp [Json.toDocument, decodeJson, decodeJsonItems_toDocument items h, Except.map]
  | .object members, h => by
    simp [Json.toDocument, decodeJson, decodeJsonFields_toDocument members h.2 [] h.1, Except.map]

theorem decodeJsonItems_toDocument : (items : List Json) → Json.CanonicalItems items →
    decodeJsonItems .strict (Json.itemsToDocument items) = .ok items
  | [], _ => rfl
  | item :: rest, h => by
    simp [Json.itemsToDocument, decodeJsonItems, decodeJson_toDocument item h.1,
      decodeJsonItems_toDocument rest h.2, Except.map]

theorem decodeJsonFields_toDocument : (members : List (String × Json)) →
    Json.CanonicalMembers members → (acc : List (String × Json)) → Ascending (acc ++ members) →
    decodeJsonFields .strict acc (Json.membersToDocument members) = .ok (acc ++ members)
  | [], _, acc, _ => by simp [Json.membersToDocument, decodeJsonFields]
  | (key, x) :: rest, h, acc, hasc => by
    have hins : Entries.insert acc key x = acc ++ [(key, x)] :=
      Entries.insert_eq_append fun e he =>
        (List.pairwise_append.mp hasc).2.2 e he (key, x) List.mem_cons_self
    have hasc' : Ascending ((acc ++ [(key, x)]) ++ rest) := by
      simpa [List.append_assoc] using hasc
    simp only [Json.membersToDocument, decodeJsonFields, decodeJson_toDocument x h.1, hins]
    rw [decodeJsonFields_toDocument rest h.2 _ hasc']
    simp [List.append_assoc]

end

/-! ## Attributes -/

def freeForm : Codec Attribute where
  decode d :=
    match h : decodeJson d with
    | .ok j => .ok ⟨j, canonical_decodeJson d h⟩
    | .error e => .error e
  encode a := a.json

theorem freeForm_decode_toDocument (a : Attribute) :
    freeForm.decode a.json.toDocument = .ok a := by
  have h := decodeJson_toDocument a.json a.canonical
  simp only [freeForm]
  split
  · rename_i j hj
    rw [h, Except.ok.injEq] at hj
    exact congrArg Except.ok (Attribute.ext hj.symm)
  · rename_i e he
    rw [h] at he
    simp at he

/-- Reads the members of a table; of two members of one name the later stays. -/
def decodeEntries {α : Type} (c : Codec α) (ending : Ending) (m : NameMap α) :
    List (Option String × Document) → Except ReadError (NameMap α)
  | [] => if ending = .broken then .error .malformed else .ok m
  | (none, _) :: _ => .error .malformed
  | (some key, d) :: rest =>
    match c.decode d with
    | .error e => .error e
    | .ok x => decodeEntries c ending (m.insert key x) rest

/-- Tables by name. -/
def table {α : Type} (c : Codec α) : Codec (NameMap α) where
  decode
    | .object fields ending => decodeEntries c ending .empty fields
    | d => .error (d.mismatch .map)
  encode m := .object (m.entries.map fun e => (e.1, c.encode e.2))

theorem decodeEntries_map {α : Type} (c : Codec α) {entries : List (String × α)}
    (h : ∀ e ∈ entries, c.Keeps e.2) (m : NameMap α) :
    decodeEntries c .strict m
      ((entries.map fun e => (e.1, c.encode e.2)).map fun e => (some e.1, e.2.toDocument))
      = .ok (m.insertAll entries) := by
  induction entries generalizing m with
  | nil => rfl
  | cons e rest ih =>
    have he : c.decode (c.encode e.2).toDocument = .ok e.2 := h e List.mem_cons_self
    simp only [List.map_cons, decodeEntries, he]
    rw [ih fun e he => h e (List.mem_cons_of_mem _ he)]
    rfl

theorem table_keeps {α : Type} (c : Codec α) {m : NameMap α} (h : ∀ e ∈ m.entries, c.Keeps e.2) :
    c.table.Keeps m := by
  simp only [Keeps, table, Json.toDocument, Json.membersToDocument_eq_map]
  rw [decodeEntries_map c h]
  exact congrArg Except.ok (NameMap.ofList_entries m)

def attributes : Codec Attributes := freeForm.table

@[simp]
theorem freeForm_keeps (a : Attribute) : freeForm.Keeps a := freeForm_decode_toDocument a

@[simp]
theorem attributes_keeps (m : Attributes) : attributes.Keeps m :=
  table_keeps freeForm fun e _ => freeForm_keeps e.2

end Codec

end RobotHost
