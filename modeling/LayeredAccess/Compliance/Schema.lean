/-
  LayeredAccess.Compliance.Schema

  Schemas: trees of named entries. An entry may list the rules that its values
  have to satisfy, and define rules of its own. A rule is referred to by its
  name, or by its name with arguments.
-/
import LayeredAccess.Decode
import LayeredAccess.Encode

namespace LayeredAccess.Compliance

open Decode Encode

/-! ## Rule references -/

/-- A reference to a rule, with the arguments to run it with. -/
structure RuleRef where
  name : String
  args : List Json := []
  deriving Inhabited

namespace RuleRef

/-- A name with a dot says where its rule is to be found. -/
def isQualified (r : RuleRef) : Bool := r.name.toList.contains '.'

/-- The reference as reports show it. -/
def toString (r : RuleRef) : String :=
  if r.args.isEmpty then r.name
  else r.name ++ "(" ++ String.intercalate ", " (r.args.map Json.render) ++ ")"

instance : ToString RuleRef := ⟨toString⟩

/-- A reference is a name, or an array of a name and arguments. Names are not empty. -/
def decode : Decoder RuleRef
  | .str s =>
    if s.isEmpty then .error (.invalid ("invalid rule reference " ++ Json.render (.str s)))
    else .ok { name := s }
  | .arr [] => .error (.invalid "rule reference array must not be empty")
  | .arr (v :: args) =>
    match v with
    | .str s =>
      if s.isEmpty then refuse v else .ok { name := s, args }
    | v => refuse v
  | v => .error (.invalid ("invalid rule reference " ++ v.render))
where
  refuse (v : Json) : Except DecodeError RuleRef :=
    .error (.invalid ("rule name must be a string, got " ++ v.render))

def encode (r : RuleRef) : Json :=
  if r.args.isEmpty then .str r.name else .arr (.str r.name :: r.args)

end RuleRef

/-! ## Rule definitions -/

/-- The description of a rule's argument. -/
structure RuleArg where
  kind : String
  required : Bool := false
  label : Option String := none
  deriving DecidableEq, Inhabited, Repr

namespace RuleArg

def fields : List (Slot RuleArg) :=
  [Decode.required "type" text fun v a => { a with kind := v },
   defaulted "required" boolean fun v a => { a with required := v },
   defaulted "label" (optional text) fun v a => { a with label := v }]

def decode : Decoder RuleArg := Decode.record "RuleArg" fields { kind := "" }

def encode (a : RuleArg) : Json :=
  Encode.record
    [always "type" (.str a.kind), always "required" (.bool a.required),
     present "label" .str a.label]

end RuleArg

/-- A rule that a schema defines by a script. -/
structure RuleDefinition where
  name : String
  label : Option String := none
  description : Option String := none
  args : List RuleArg := []
  /-- The script; it sees `value` and `args` and has to give a boolean. -/
  body : String
  /-- What is reported where the rule fails. -/
  errorText : Option String := none
  deriving DecidableEq, Inhabited, Repr

namespace RuleDefinition

def fields : List (Slot RuleDefinition) :=
  [Decode.required "name" text fun v d => { d with name := v },
   defaulted "label" (optional text) fun v d => { d with label := v },
   defaulted "description" (optional text) fun v d => { d with description := v },
   defaulted "args" (list RuleArg.decode) fun v d => { d with args := v },
   Decode.required "fn" text fun v d => { d with body := v },
   defaulted "errorText" (optional text) fun v d => { d with errorText := v }]

def decode : Decoder RuleDefinition :=
  Decode.record "RuleDefinition" fields { name := "", body := "" }

def encode (d : RuleDefinition) : Json :=
  Encode.record
    [always "name" (.str d.name),
     present "label" .str d.label,
     present "description" .str d.description,
     always "args" (.arr (d.args.map RuleArg.encode)),
     always "fn" (.str d.body),
     present "errorText" .str d.errorText]

end RuleDefinition

/-- The rules that the values of an entry have to satisfy, and those that the entry defines. -/
structure Comply where
  rules : List RuleRef := []
  define : List RuleDefinition := []
  deriving Inhabited

namespace Comply

def fields : List (Slot Comply) :=
  [defaulted "rules" (list RuleRef.decode) fun v c => { c with rules := v },
   defaulted "define" (list RuleDefinition.decode) fun v c => { c with define := v }]

def decode : Decoder Comply := Decode.record "Comply" fields {}

def encode (c : Comply) : Json :=
  Encode.record
    [always "rules" (.arr (c.rules.map RuleRef.encode)),
     nonempty "define" RuleDefinition.encode c.define]

end Comply

/-! ## Entries -/

/-- An entry of a schema with the entries below it. -/
structure Schema where
  name : String
  label : Option String := none
  revision : Option String := none
  /-- The JSON type that values of the entry are declared to have. -/
  kind : Option String := none
  /-- The initial value. -/
  init : Option Json := none
  comply : Option Comply := none
  children : List Schema := []
  deriving Inhabited

namespace Schema

/-- The fields of an entry, given how the entries below it are read. -/
def fields (child : Decoder Schema) : List (Slot Schema) :=
  [required "name" text fun v s => { s with name := v },
   defaulted "label" (optional text) fun v s => { s with label := v },
   defaulted "revision" (optional text) fun v s => { s with revision := v },
   defaulted "type" (optional text) fun v s => { s with kind := v },
   defaulted "init" (optional any) fun v s => { s with init := v },
   defaulted "comply" (optional Comply.decode) fun v s => { s with comply := v },
   defaulted "children" (list child) fun v s => { s with children := v }]

/-- Reads entries that nest no deeper than a bound. -/
def decodeUpTo : Nat → Decoder Schema
  | 0, _ => .error (.invalid "entries nest too deeply")
  | depth + 1, v => Decode.record "SchemaNode" (fields (decodeUpTo depth)) { name := "" } v

/-- Reads an entry with everything below it: entries nest less deeply than the value they are
read from. -/
def decode : Decoder Schema := fun v => decodeUpTo v.depth v

mutual

/-- The encoding of an entry with everything below it. -/
def encode : Schema → Json
  | { name, label, revision, kind, init, comply, children } =>
    let below := encodeAll children
    Encode.record
      [always "name" (.str name),
       present "label" .str label,
       present "revision" .str revision,
       present "type" .str kind,
       present "init" itself init,
       present "comply" Comply.encode comply,
       if below.isEmpty then none else some ("children", .arr below)]

/-- The encodings of a list of entries. -/
def encodeAll : List Schema → List Json
  | [] => []
  | s :: rest => encode s :: encodeAll rest

end

end Schema

end LayeredAccess.Compliance
