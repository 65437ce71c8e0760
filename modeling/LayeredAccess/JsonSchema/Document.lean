/-
  LayeredAccess.JsonSchema.Document

  A schema as a document with places that references lead to. A schema in it may
  have an address of its own, and references in it are then read beside that
  address; an anchor names a schema beside its address. Behind `#` a reference has
  such a name, or the way from the schema at the address to one of its parts.
-/
import LayeredAccess.JsonSchema.Draft

namespace LayeredAccess

/-! ## Origins -/

/-- How the references and the keywords of a schema are read. -/
structure SchemaOrigin where
  /-- The address that references are beside. -/
  base : Uri
  draft : Draft
  deriving DecidableEq, Inhabited, Repr

namespace SchemaOrigin

/-- The member with the address of a schema. -/
def identifierKey (d : Draft) : String := if d = .four then "id" else "$id"

/-- The address that a schema gives itself. A schema that is only a reference has none, and neither
does one that names itself where there are no anchors. -/
def identifier? (d : Draft) (ms : List (String × Json)) : Option String := do
  let id ← (KeyMap.find? ms (identifierKey d)).bind Json.asString?
  if !d.isDated && (KeyMap.contains ms "$ref" || id.startsWith "#") then none
  else return Draft.withoutMarks id

/-- The origin of a schema by the one around it. Draft and address change where the schema names
its own. -/
def enter (o : SchemaOrigin) (ms : List (String × Json)) : Option SchemaOrigin := do
  let draft :=
    match KeyMap.find? ms "$schema" with
    | some (.str s) => (Draft.named? s).getD .year2020
    | _ => o.draft
  match identifier? draft ms with
  | none => return { o with draft }
  | some id =>
    let base ← o.base.resolve (← Uri.read id)
    return { base := { base with fragment := none }, draft }

end SchemaOrigin

/-! ## Places -/

/-- A part of a document and the origin of what is in it. -/
structure SchemaPlace where
  origin : SchemaOrigin
  value : Json
  deriving Inhabited

namespace SchemaPlace

mutual

/-- All schemas in a value of a shape. -/
def within (o : SchemaOrigin) : Shape → Json → Option (List SchemaPlace)
  | .schema, .obj ms | .schemaOrFlag, .obj ms | .schemaOrSchemas, .obj ms
  | .dependency, .obj ms => do
    let o ← o.enter ms
    return ⟨o, .obj ms⟩ :: (← withinKeywords o ms)
  | .schemas, .arr vs | .schemaOrSchemas, .arr vs => withinItems o vs
  | .schemaMap, .obj ms | .patternMap, .obj ms => withinMembers o .schema ms
  | .dependencyMap, .obj ms => withinMembers o .dependency ms
  | _, _ => some []

/-- All schemas in the values of keywords. -/
def withinKeywords (o : SchemaOrigin) : List (String × Json) → Option (List SchemaPlace)
  | [] => some []
  | (keyword, v) :: rest => do
    return (← within o (Shape.ofKeyword o.draft keyword) v) ++ (← withinKeywords o rest)

/-- All schemas in a list. -/
def withinItems (o : SchemaOrigin) : List Json → Option (List SchemaPlace)
  | [] => some []
  | v :: rest => do
    return (← within o .schema v) ++ (← withinItems o rest)

/-- All schemas in the values of members of one shape. -/
def withinMembers (o : SchemaOrigin) (shape : Shape) :
    List (String × Json) → Option (List SchemaPlace)
  | [] => some []
  | (_, v) :: rest => do
    return (← within o shape v) ++ (← withinMembers o shape rest)

end

/-- Does a place give itself an address? -/
def hasAddress (p : SchemaPlace) : Bool :=
  (p.value.asObject?.bind (SchemaOrigin.identifier? p.origin.draft)).any (!·.isEmpty)

/-- The names that a place has beside its address. -/
def anchors (p : SchemaPlace) : List String :=
  let named (keyword : String) : List String :=
    ((p.value.member? keyword).bind Json.asString?).toList
  match p.origin.draft with
  | .year2020 => named "$anchor" ++ named "$dynamicAnchor"
  | .year2019 => named "$anchor"
  | d =>
    ((named (SchemaOrigin.identifierKey d)).filter (·.startsWith "#")).map fun s =>
      String.ofList (s.toList.drop 1)

/-- The text of a reference. -/
def reference? (p : SchemaPlace) : Option String := (p.value.member? "$ref").bind Json.asString?

/-- The place of an item, or of a member. -/
def part? (p : SchemaPlace) (segment : String) : Option SchemaPlace := do
  let value ←
    match p.value with
    | .arr vs => (index? segment.toList).bind fun i => vs[i]?
    | .obj ms => KeyMap.find? ms (String.ofList (unescape segment.toList))
    | _ => none
  match value with
  | .obj ms => return ⟨← p.origin.enter ms, value⟩
  | _ => return ⟨p.origin, value⟩
where
  index? : List Char → Option Nat
    | '+' :: cs => digits? cs
    | cs => digits? cs
  digits? (cs : List Char) : Option Nat :=
    if cs.isEmpty || !cs.all Char.isDigit then none else (String.ofList cs).toNat?
  unescape : List Char → List Char
    | '~' :: '0' :: rest => '~' :: unescape rest
    | '~' :: '1' :: rest => '/' :: unescape rest
    | c :: rest => c :: unescape rest
    | [] => []

end SchemaPlace

/-! ## Documents -/

/-- A document: the place of all of it, and of all schemas in it. -/
structure SchemaDocument where
  root : SchemaPlace
  places : List SchemaPlace
  deriving Inhabited

namespace SchemaDocument

/-- The address of a document that has none. -/
def ownBase : Uri := { scheme := some "json-schema".toList, authority := some [], path := ['/'] }

/-- The document of a schema. -/
def ofSchema (draft : Draft) (schema : Json) : Option SchemaDocument := do
  let outer : SchemaOrigin := { base := ownBase, draft }
  let origin ←
    match schema with
    | .obj ms => outer.enter ms
    | _ => some outer
  return { root := ⟨origin, schema⟩, places := ← SchemaPlace.within outer .schema schema }

/-- The place of an address. -/
def addressed? (doc : SchemaDocument) (address : String) : Option SchemaPlace :=
  (doc.root :: doc.places.filter (·.hasAddress)).find? (·.origin.base.text == address)

/-- What a reference leads to. -/
def target? (o : SchemaOrigin) (reference : String) : Option Target := do
  let r ← Uri.read reference
  let whole ← o.base.resolve { r with fragment := none }
  return ⟨{ whole with fragment := none }.text, String.ofList (r.fragment.getD [])⟩

/-- Does a reference lead out of the document? One that begins with `#` does not, and neither does
the name of a draft. -/
def leadsOut (doc : SchemaDocument) (o : SchemaOrigin) (reference : String) : Bool :=
  !reference.startsWith "#" &&
    match target? o reference with
    | some t => (doc.addressed? t.address).isNone && (Draft.named? t.address).isNone
    | none => true

/-- Does no schema lead out of the document? -/
def isClosed (doc : SchemaDocument) : Bool :=
  !doc.places.any fun p => p.reference?.any (doc.leadsOut p.origin)

/-- The segments of the way to a part. -/
def way? (fragment : List Char) : Option (List String) := do
  let text ← Uri.decoded? fragment
  return (Uri.splitOn '/' text.toList).map String.ofList

/-- The place that a reference leads to. -/
def place? (doc : SchemaDocument) (t : Target) : Option SchemaPlace :=
  match t.fragment.toList with
  | [] => doc.addressed? t.address
  | '/' :: way => do (← way? way).foldlM SchemaPlace.part? (← doc.addressed? t.address)
  | _ => doc.places.find? fun p => p.origin.base.text == t.address && p.anchors.contains t.fragment

end SchemaDocument

end LayeredAccess
