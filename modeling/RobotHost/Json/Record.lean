import RobotHost.Json.Attribute

/-!
# Records

A `Record σ` says how values of a structure `σ` are written: which fields there are, in which order,
which must be given and which are left out when they hold nothing. One description serves reading
and writing.

A record is read from an object or from the list of its fields. From an object the fields come in
the order of the text: an unknown one is skipped, a repeated one is an error, and a required one
that never came is noticed at the end, the earliest declared first. From a list they come in the
order of their declaration, and fields at the end that are not required may be left out.
-/

namespace RobotHost

/-- One field of a record of type `σ`. -/
structure Field (σ : Type) where
  key : String
  required : Bool
  /-- Reads the field into a record. -/
  read : Document → σ → Except ReadError σ
  /-- The written field, unless it is left out. -/
  write : σ → Option Json

namespace Field

variable {σ τ : Type}

/-- A field that must be given. -/
def needed (key : String) (c : Codec τ) (get : σ → τ) (set : σ → τ → σ) : Field σ where
  key := key
  required := true
  read d r := (c.decode d).map (set r)
  write r := some (c.encode (get r))

/-- A field that may be missing and is always written. -/
def defaulted (key : String) (c : Codec τ) (get : σ → τ) (set : σ → τ → σ) : Field σ where
  key := key
  required := false
  read d r := (c.decode d).map (set r)
  write r := some (c.encode (get r))

/-- A field that may be missing and is left out when it holds nothing. -/
def sparse (key : String) (c : Codec τ) (isNothing : τ → Bool) (get : σ → τ) (set : σ → τ → σ) :
    Field σ where
  key := key
  required := false
  read d r := (c.decode d).map (set r)
  write r := if isNothing (get r) then none else some (c.encode (get r))

end Field

structure Record (σ : Type) where
  name : String
  /-- A record of which no field has been read. -/
  blank : σ
  fields : List (Field σ)

namespace Record

variable {σ : Type}

/-- The first required field that was not seen. -/
def missing? (r : Record σ) (seen : List String) : Option (Field σ) :=
  r.fields.find? fun f => f.required && !seen.contains f.key

/-- Reads the fields of an object; `seen` holds the keys read so far. -/
def decodeFields (r : Record σ) (ending : Ending) (seen : List String) (x : σ) :
    List (Option String × Document) → Except ReadError σ
  | [] =>
    if ending = .broken then .error .malformed
    else
      match r.missing? seen with
      | some f => .error (.fault (.missingField f.key))
      | none => .ok x
  | (none, _) :: _ => .error .malformed
  | (some key, d) :: rest =>
    match r.fields.find? fun f => f.key = key with
    | none =>
      if d.skippable then decodeFields r ending seen x rest else .error .malformed
    | some f =>
      if seen.contains key then .error (.fault (.duplicateField key))
      else
        match f.read d x with
        | .error e => .error e
        | .ok x => decodeFields r ending (key :: seen) x rest

/-- Reads a list of fields, of which `index` were read before. -/
def decodeItems (r : Record σ) (ending : Ending) (index : Nat) (x : σ) :
    List (Field σ) → List Document → Except ReadError σ
  | [], [] => if ending = .broken then .error .malformed else .ok x
  | [], _ :: _ => if ending = .lenient then .ok x else .error .malformed
  | f :: fields, [] =>
    if ending = .broken then .error .malformed
    else if f.required then
      .error (.fault (.invalidLength index (.recordOf r.name r.fields.length)))
    else decodeItems r ending (index + 1) x fields []
  | f :: fields, d :: rest =>
    match f.read d x with
    | .error e => .error e
    | .ok x => decodeItems r ending (index + 1) x fields rest

def decode (r : Record σ) : Document → Except ReadError σ
  | .object fields ending => r.decodeFields ending [] r.blank fields
  | .array items ending => r.decodeItems ending 0 r.blank r.fields items
  | d => .error (d.mismatch (.record r.name))

/-- The fields of a record that are written, in the order of their declaration. -/
def members (r : Record σ) (x : σ) : List (String × Json) :=
  r.fields.filterMap fun f => (f.write x).map fun j => (f.key, j)

def codec (r : Record σ) : Codec σ where
  decode := r.decode
  encode x := .object (r.members x)

end Record

end RobotHost
