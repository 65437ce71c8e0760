/-
  LayeredAccess.Decode

  Reading typed data from JSON values. A decoder either gives its value or
  says why the JSON value is refused.

  A record is an object with named fields, or an array of its fields in
  declaration order. The members of an object are visited in key order and the
  first bad one is reported; only then missing fields are looked for. Unknown
  members are ignored.
-/
import LayeredAccess.Json.Printer
import LayeredAccess.Text.Quoted

namespace LayeredAccess

/-- Why a JSON value is refused. -/
inductive DecodeError where
  /-- A required field is absent. -/
  | missingField (name : String)
  /-- A value of the wrong kind; `expected` describes the right one. -/
  | wrongType (got : Json) (expected : String)
  /-- An integer out of range. -/
  | outOfRange (got : Int) (expected : String)
  /-- An object in the place of a name, with no or several members. -/
  | notSingleKey
  /-- A name that is none of the known ones. -/
  | unknownName (got : String) (known : List String)
  /-- An array that is too short for its required fields. -/
  | tooShort (length : Nat) (expected : String)
  /-- An array with more items than there are fields. -/
  | tooLong (length : Nat)
  /-- A value that breaks a rule of its own type. -/
  | invalid (reason : String)
  deriving Inhabited

namespace DecodeError

/-- A JSON value as messages describe it. -/
def describe : Json → String
  | .null => "null"
  | .bool true => "boolean \x60true\x60"
  | .bool false => "boolean \x60false\x60"
  | .int n => "integer \x60" ++ toString n ++ "\x60"
  | .double x => "floating point \x60" ++ Json.doubleText x ++ "\x60"
  | .str s => "string " ++ Text.quoted s
  | .arr _ => "sequence"
  | .obj _ => "map"

/-- The known names as messages list them. -/
def choices (known : List String) : String :=
  match known.map fun n => "\x60" ++ n ++ "\x60" with
  | [] => "there are no variants"
  | [a] => "expected " ++ a
  | [a, b] => "expected " ++ a ++ " or " ++ b
  | names => "expected one of " ++ String.intercalate ", " names

/-- The text of a refusal. -/
def message : DecodeError → String
  | missingField name => "missing field \x60" ++ name ++ "\x60"
  | wrongType got expected => "invalid type: " ++ describe got ++ ", expected " ++ expected
  | outOfRange got expected =>
    "invalid value: integer \x60" ++ toString got ++ "\x60, expected " ++ expected
  | notSingleKey => "invalid value: map, expected map with a single key"
  | unknownName got known => "unknown variant \x60" ++ got ++ "\x60, " ++ choices known
  | tooShort length expected => "invalid length " ++ toString length ++ ", expected " ++ expected
  | tooLong length =>
    "invalid length " ++ toString length ++ ", expected fewer elements in array"
  | invalid reason => reason

end DecodeError

/-- Reads a value of a type from JSON. -/
abbrev Decoder (α : Type) := Json → Except DecodeError α

namespace Decode

/-! ## Single values -/

/-- A text. -/
def text : Decoder String
  | .str s => .ok s
  | v => .error (.wrongType v "a string")

/-- A truth value. -/
def boolean : Decoder Bool
  | .bool b => .ok b
  | v => .error (.wrongType v "a boolean")

/-- A natural number below a bound; `name` is the name of its type in messages. -/
def natural (name : String) (bound : Nat) : Decoder Nat
  | .int n => if 0 ≤ n ∧ n < bound then .ok n.toNat else .error (.outOfRange n name)
  | v => .error (.wrongType v name)

/-- A natural number of 64 bits. -/
def word64 : Decoder Nat := natural "u64" wordLimit

/-- A byte. -/
def byte : Decoder UInt8 := fun v => (natural "u8" 256 v).map UInt8.ofNat

/-- Any JSON value, `null` included. -/
def any : Decoder Json := .ok

/-- Reads `null` as absent. -/
def optional {α : Type} (decode : Decoder α) : Decoder (Option α)
  | .null => .ok none
  | v => (decode v).map some

/-- A list; its first bad item is reported. -/
def list {α : Type} (decode : Decoder α) : Decoder (List α)
  | .arr items => items.mapM decode
  | v => .error (.wrongType v "a sequence")

/-- A list of texts. -/
def texts : Decoder (List String) := list text

/-- The index of a name among the known ones. A name is a string, or an object whose only
member has the name as key and `null` as value. -/
def name (known : List String) : Decoder (Fin known.length)
  | .str s => find s
  | .obj [(k, v)] => do
    let i ← find k
    match v with
    | .null => return i
    | v => throw (.wrongType v "unit")
  | .obj _ => .error .notSingleKey
  | v => .error (.wrongType v "string or map")
where
  find (s : String) : Except DecodeError (Fin known.length) :=
    match known.finIdxOf? s with
    | some i => .ok i
    | none => .error (.unknownName s known)

/-- One of the values of a list of named values. -/
def choice {α : Type} (values : List (String × α)) : Decoder α := fun v => do
  let i ← name (values.map (·.1)) v
  return (values.get (i.cast (by simp))).2

/-! ## Records -/

/-- A field of a record under construction. -/
structure Slot (ρ : Type) where
  name : String
  /-- Must the field be given? -/
  required : Bool
  /-- Reads the field's value into the record. -/
  read : Json → Except DecodeError (ρ → ρ)

variable {ρ α : Type}

/-- A field that must be given. -/
def required (name : String) (decode : Decoder α) (set : α → ρ → ρ) : Slot ρ :=
  ⟨name, true, fun v => (decode v).map set⟩

/-- A field that keeps its initial value where it is not given. -/
def defaulted (name : String) (decode : Decoder α) (set : α → ρ → ρ) : Slot ρ :=
  ⟨name, false, fun v => (decode v).map set⟩

/-- Reads one member of an object: an unknown one changes nothing. -/
def readMember (fields : List (Slot ρ)) (r : ρ) (member : String × Json) :
    Except DecodeError ρ :=
  match fields.find? (·.name == member.1) with
  | some field => (field.read member.2).map (· r)
  | none => .ok r

/-- The first required field that an object lacks. -/
def missing? (fields : List (Slot ρ)) (members : KeyMap String Json) : Option String :=
  (fields.find? fun f => f.required && !KeyMap.contains members f.name).map (·.name)

/-- Reads the members of an object into a record. -/
def readMembers (fields : List (Slot ρ)) (initial : ρ) (members : KeyMap String Json) :
    Except DecodeError ρ := do
  let r ← members.foldlM (readMember fields) initial
  match missing? fields members with
  | some name => throw (.missingField name)
  | none => return r

/-- Reads array items into the fields in declaration order, up to the end of either. -/
def readItems : List (Slot ρ) → List Json → ρ → Except DecodeError ρ
  | field :: fields, v :: items, r => do readItems fields items ((← field.read v) r)
  | _, _, r => .ok r

/-- Reads an array as a record: the tail may be left out where its fields need not be given. -/
def readArray (typeName : String) (fields : List (Slot ρ)) (initial : ρ) (items : List Json) :
    Except DecodeError ρ := do
  let r ← readItems fields items initial
  if (fields.drop items.length).any (·.required) then
    let count := fields.length
    let elements := if count = 1 then "1 element" else toString count ++ " elements"
    throw (.tooShort (firstMissing items.length) ("struct " ++ typeName ++ " with " ++ elements))
  if fields.length < items.length then throw (.tooLong items.length)
  return r
where
  /-- The position of the first required field at or after a position. -/
  firstMissing (n : Nat) : Nat :=
    n + ((fields.drop n).takeWhile (!·.required)).length

/-- A record. -/
def record (typeName : String) (fields : List (Slot ρ)) (initial : ρ) : Decoder ρ
  | .obj members => readMembers fields initial members
  | .arr items => readArray typeName fields initial items
  | v => .error (.wrongType v ("struct " ++ typeName))

end Decode

end LayeredAccess
