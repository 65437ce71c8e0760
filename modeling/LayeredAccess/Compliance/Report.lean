/-
  LayeredAccess.Compliance.Report

  The outcome of checking a value against a schema: for every entry the rules
  that its value broke, each with the reason.
-/
import LayeredAccess.Decode
import LayeredAccess.Encode

namespace LayeredAccess.Compliance

open Decode Encode

/-- Where an entry stands: the names from the schema's root downwards. -/
abbrev Path := List String

/-- Why a rule is reported. -/
inductive ViolationReason where
  /-- The rule ran and refused the value; carries the rule's error text. -/
  | failed (text : String)
  /-- The rule could not run. -/
  | errored (text : String)
  /-- There is no rule of that name. -/
  | unresolved
  deriving DecidableEq, Inhabited, Repr

namespace ViolationReason

/-- The names of the kinds of reasons. -/
inductive Kind where
  | failed
  | errored
  | unresolved
  deriving DecidableEq

def kinds : List (String × Kind) :=
  [("failed", .failed), ("errored", .errored), ("unresolved", .unresolved)]

/-- Reads a reason from its kind and its detail, if there is one. -/
def ofParts (kind : Kind) (detail : Option Json) : Except DecodeError ViolationReason :=
  match kind, detail with
  | .unresolved, none => .ok unresolved
  | .unresolved, some .null => .ok unresolved
  | .unresolved, some v =>
    .error (.wrongType v "unit variant ViolationReason::Unresolved")
  | _, none => .error (.missingField "detail")
  | .failed, some v => (text v).map failed
  | .errored, some v => (text v).map errored

/-- A reason is an object of `kind` and `detail`, or an array of the two. -/
def decode : Decoder ViolationReason
  | .obj members => do
    let kind ← match KeyMap.find? members "kind" with
      | some v => choice kinds v
      | none => throw (.missingField "kind")
    ofParts kind (KeyMap.find? members "detail")
  | .arr items =>
    match items with
    | [] => .error (.tooShort 0 typeName)
    | [v] => do
      let _ ← kindText v
      throw (.tooShort 1 typeName)
    | kind :: detail :: rest => do
      let kind ← kindText kind
      let reason ← ofParts kind (some detail)
      if rest.isEmpty then return reason else throw (.tooLong items.length)
  | v => .error (.wrongType v typeName)
where
  typeName : String := "adjacently tagged enum ViolationReason"
  /-- The kind by its bare name. -/
  kindText : Decoder Kind
    | .str s => choice kinds (.str s)
    | v => .error (.wrongType v "variant identifier")

def encode : ViolationReason → Json
  | failed s => Json.mkObj [("kind", .str "failed"), ("detail", .str s)]
  | errored s => Json.mkObj [("kind", .str "errored"), ("detail", .str s)]
  | unresolved => Json.mkObj [("kind", .str "unresolved")]

end ViolationReason

/-- A rule that a value broke. -/
structure Violation where
  /-- The entry. -/
  path : Path
  /-- The entry that the rule was found at; empty where there is no such rule. -/
  rulePath : Path
  /-- The reference to the rule as the schema has it. -/
  rule : String
  value : Json
  reason : ViolationReason
  deriving Inhabited

namespace Violation

def fields : List (Slot Violation) :=
  [required "path" texts fun x v => { v with path := x },
   required "rule_path" texts fun x v => { v with rulePath := x },
   required "rule" text fun x v => { v with rule := x },
   required "value" any fun x v => { v with value := x },
   required "reason" ViolationReason.decode fun x v => { v with reason := x }]

def decode : Decoder Violation :=
  Decode.record "Violation" fields
    { path := [], rulePath := [], rule := "", value := .null, reason := .unresolved }

def encode (v : Violation) : Json :=
  Encode.record
    [always "path" (.ofStrings v.path),
     always "rule_path" (.ofStrings v.rulePath),
     always "rule" (.str v.rule),
     always "value" v.value,
     always "reason" v.reason.encode]

end Violation

/-- The rules that the value of one entry broke. -/
structure EntryViolations where
  path : Path
  violations : List Violation
  deriving Inhabited

namespace EntryViolations

def fields : List (Slot EntryViolations) :=
  [required "path" texts fun x e => { e with path := x },
   required "violations" (list Violation.decode) fun x e => { e with violations := x }]

def decode : Decoder EntryViolations :=
  Decode.record "EntryViolations" fields { path := [], violations := [] }

def encode (e : EntryViolations) : Json :=
  Encode.record
    [always "path" (.ofStrings e.path),
     always "violations" (.arr (e.violations.map Violation.encode))]

end EntryViolations

/-- All rules that a value broke. -/
structure Report where
  /-- Broken rules of the schema's root, which see the whole value. -/
  root : List Violation := []
  /-- Broken rules of the entries below, in the order of the walk. -/
  entries : List EntryViolations := []
  deriving Inhabited

namespace Report

/-- Nothing to report. -/
def isEmpty (r : Report) : Bool := r.root.isEmpty && r.entries.isEmpty

/-- Every violation, those of the root first. -/
def violations (r : Report) : List Violation := r.root ++ r.entries.flatMap (·.violations)

/-- The number of violations. -/
def size (r : Report) : Nat := r.root.length + (r.entries.flatMap (·.violations)).length

/-- The violations recorded first for a path. -/
def violationsAt? (r : Report) (path : Path) : Option (List Violation) :=
  (r.entries.find? (·.path == path)).map (·.violations)

/-- The report in one line. -/
def toString (r : Report) : String :=
  let items := r.violations.map fun v =>
    v.rule ++ " at [" ++ String.intercalate "." v.path ++ "]"
  let count := ToString.toString r.size ++ " violation(s)"
  if items.isEmpty then count else count ++ ": " ++ String.intercalate "; " items

instance : ToString Report := ⟨toString⟩

def fields : List (Slot Report) :=
  [defaulted "root" (list Violation.decode) fun x r => { r with root := x },
   defaulted "entries" (list EntryViolations.decode) fun x r => { r with entries := x }]

def decode : Decoder Report := Decode.record "ComplianceReport" fields {}

def encode (r : Report) : Json :=
  Encode.record
    [nonempty "root" Violation.encode r.root, nonempty "entries" EntryViolations.encode r.entries]

/-- The number of violations is the length of their list. -/
theorem size_eq_length (r : Report) : r.size = r.violations.length := by
  simp [size, violations, List.length_flatMap]

end Report

end LayeredAccess.Compliance
