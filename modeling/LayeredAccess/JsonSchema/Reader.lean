/-
  LayeredAccess.JsonSchema.Reader

  Schemas from JSON values. A value is read by the draft that it names, or by the
  latest, and has to be a schema of it all through; then its formula and the
  formulas of all places that these refer to are read. `JsonSchema.read` gives
  nothing for whatever is no schema, and for references that lead nowhere.
-/
import LayeredAccess.JsonSchema.Basic
import LayeredAccess.JsonSchema.Document
import LayeredAccess.JsonSchema.Keyword
import LayeredAccess.JsonSchema.TextFormat

namespace LayeredAccess

namespace Formula

/-! ## Keywords without schemas -/

/-- The keywords of a schema with their values. -/
abbrev Siblings := List (String × Json)

/-- Does a bound of the oldest draft exclude the value itself? -/
def excludes (d : Draft) (all : Siblings) (keyword : String) : Bool :=
  d = .four && ((KeyMap.find? all keyword).bind Json.asBool?).getD false

/-- The text of another keyword. -/
def textOf? (all : Siblings) (keyword : String) : Option String :=
  (KeyMap.find? all keyword).bind Json.asString?

/-- Does a draft look into texts? -/
def hasContent (d : Draft) : Bool := d = .six || d = .seven

/-- The formula of a keyword that has no schemas in its value. -/
def ofAssertion? (d : Draft) (all : Siblings) (keyword : String) (v : Json) : Option Formula :=
  let counted (what : Countable) (test : Nat → Nat → Bool) : Option Formula :=
    (Shape.count? d v).map fun n => .counted what (test · n)
  let bounded (test : Ordering → Bool) : Option Formula :=
    v.ratio?.map fun _ => .bounded v test
  match keyword with
  | "type" => (Shape.kinds? d v).map .ofKind
  | "enum" => v.asArray?.map .oneOf
  | "const" => some (if d = .four then .constant true else .oneOf [v])
  | "minimum" =>
    let isOver := excludes d all "exclusiveMinimum"
    bounded fun o => o == .gt || (!isOver && o == .eq)
  | "maximum" =>
    let isUnder := excludes d all "exclusiveMaximum"
    bounded fun o => o == .lt || (!isUnder && o == .eq)
  | "exclusiveMinimum" => if d = .four then some (.constant true) else bounded (· == .gt)
  | "exclusiveMaximum" => if d = .four then some (.constant true) else bounded (· == .lt)
  | "multipleOf" =>
    if v.compareSize? (.int 0) == some .gt then some (.multipleOf v) else none
  | "minLength" => counted .characters (· ≥ ·)
  | "maxLength" => counted .characters (· ≤ ·)
  | "minItems" => counted .items (· ≥ ·)
  | "maxItems" => counted .items (· ≤ ·)
  | "minProperties" => counted .members (· ≥ ·)
  | "maxProperties" => counted .members (· ≤ ·)
  | "pattern" => v.asString?.bind fun s => (TextPattern.read s).map .matching
  | "format" => v.asString?.map fun s => .written (TextFormat.named d s)
  | "contentEncoding" =>
    if hasContent d && !KeyMap.contains all "contentMediaType" then
      v.asString?.map fun s => .written (TextFormat.isEncoded s)
    else some (.constant true)
  | "contentMediaType" =>
    if hasContent d then
      v.asString?.map fun s => .written (TextFormat.isContent s (textOf? all "contentEncoding"))
    else some (.constant true)
  | "uniqueItems" => v.asBool?.map fun b => if b then .distinctItems else .constant true
  | "required" => (Shape.names? v).map .required
  | "dependentRequired" =>
    if d.isDated then do
      let ms ← v.asObject?
      return .every (← ms.mapM fun m => do return .dependent m.1 (.required (← Shape.names? m.2)))
    else some (.constant true)
  | _ => some (.constant true)

/-! ## Keywords beside each other -/

/-- The names that are described one by one. -/
def describedNames (all : Siblings) : List String :=
  (((KeyMap.find? all "properties").bind Json.asObject?).getD []).map (·.1)

/-- The patterns of names that are described. -/
def describedPatterns (all : Siblings) : Option (List TextPattern) :=
  (((KeyMap.find? all "patternProperties").bind Json.asObject?).getD []).mapM
    fun m => TextPattern.read m.1

/-- The number of items that are described one by one under a keyword. -/
def describedItems (all : Siblings) (keyword : String) : Option Nat :=
  ((KeyMap.find? all keyword).bind Json.asArray?).map List.length

/-- The condition on the number of items that an array contains. -/
def containedTest (d : Draft) (all : Siblings) : Option (Nat → Bool) :=
  if d.isDated then do
    let least ← ((KeyMap.find? all "minContains").map (Shape.count? d)).getD (some 1)
    let count? (v : Json) : Option (Option Nat) := (Shape.count? d v).map some
    let most ← ((KeyMap.find? all "maxContains").map count?).getD (some none)
    return fun n => least ≤ n && most.all (n ≤ ·)
  else some (0 < ·)

/-- The formulas of the keywords of one schema. Conditions, and what is said about the rest, come
to them at the end. -/
structure Parts where
  formulas : List Formula := []
  test : Option Formula := none
  yes : Formula := .constant true
  no : Formula := .constant true
  restMembers : Option Formula := none
  restItems : Option Formula := none

namespace Parts

/-- One formula more. -/
def add (p : Parts) (f : Formula) : Parts := { p with formulas := f :: p.formulas }

/-- All keywords together. -/
def formula (p : Parts) : Formula :=
  let others := (p.test.map fun test => .conditional test p.yes p.no).toList ++ p.formulas
  .every (others ++ (p.restMembers.map (.restMembers others)).toList
    ++ (p.restItems.map (.restItems others)).toList)

end Parts

/-! ## Schemas -/

/-- The formula of a reference. The name of a draft stands for all its schemas. -/
def ofReference? (doc : SchemaDocument) (o : SchemaOrigin) (text : String) : Option Formula := do
  let t ← SchemaDocument.target? o text
  if (doc.addressed? t.address).isNone && t.fragment.isEmpty then
    (Draft.named? t.address).map .wellFormed
  else return .place t

/-- The formula of an object by its keywords, or by its reference alone. -/
def ofObject? (doc : SchemaDocument) (o : SchemaOrigin) (all : Siblings) (parts : Option Parts) :
    Option Formula :=
  match o.draft.isDated, KeyMap.find? all "$ref" with
  | false, some v => v.asString?.bind (ofReference? doc o)
  | _, _ => parts.map Parts.formula

/-- Formulas for the items of an array, one for each. -/
def numbered (fs : List Formula) : List Formula := fs.zipIdx.map fun e => .item e.2 e.1

mutual

/-- Reads a schema. -/
def read (doc : SchemaDocument) (o : SchemaOrigin) : Json → Option Formula
  | .bool b => some (.constant b)
  | .obj ms => do
    let o ← o.enter ms
    ofObject? doc o ms (readKeywords doc o ms ms)
  | _ => none

/-- Reads the keywords of a schema; `all` are all of them. -/
def readKeywords (doc : SchemaDocument) (o : SchemaOrigin) (all : Siblings) :
    List (String × Json) → Option Parts
  | [] => some {}
  | (keyword, v) :: rest => do
    let parts ← readKeywords doc o all rest
    match Keyword.ofName o.draft keyword with
    | .reference => return parts.add (← ofReference? doc o (← v.asString?))
    | .selfReference => return parts.add (← ofReference? doc o "#")
    | .not => return parts.add (.not (← read doc o v))
    | .allOf => return parts.add (.every (← readList doc o v))
    | .anyOf => return parts.add (.any (← readList doc o v))
    | .oneOf => return parts.add (.exactlyOne (← readList doc o v))
    | .test => return { parts with test := some (← read doc o v) }
    | .yes =>
      if KeyMap.contains all "if" then return { parts with yes := ← read doc o v } else return parts
    | .no =>
      if KeyMap.contains all "if" then return { parts with no := ← read doc o v } else return parts
    | .members => return parts.add (.every ((← readMap doc o v).map fun e => .member e.1 e.2))
    | .matchingMembers =>
      let entries ← readMap doc o v
      return parts.add (.every (← entries.mapM fun e => do
        return .matchingMembers (← TextPattern.read e.1) e.2))
    | .otherMembers =>
      return parts.add
        (.otherMembers (describedNames all) (← describedPatterns all) (← read doc o v))
    | .restMembers => return { parts with restMembers := some (← read doc o v) }
    | .memberNames => return parts.add (.memberNames (← read doc o v))
    | .dependents => return parts.add (.every ((← readMap doc o v).map fun e => .dependent e.1 e.2))
    | .dependencies => return parts.add (.every (← readDependencies doc o v))
    | .firstItems => return parts.add (.every (numbered (← readList doc o v)))
    | .items =>
      match describedItems all "items" with
      | some _ => return parts.add (.every (numbered (← readList doc o v)))
      | none =>
        let first := if o.draft.hasItemLists then 0 else (describedItems all "prefixItems").getD 0
        return parts.add (.itemsFrom first (← read doc o v))
    | .otherItems =>
      match describedItems all "items" with
      | some first => return parts.add (.itemsFrom first (← read doc o v))
      | none => return parts
    | .restItems => return { parts with restItems := some (← read doc o v) }
    | .contained =>
      return parts.add
        (.containing (← read doc o v) (← containedTest o.draft all) (o.draft = .year2020))
    | .assertion => return parts.add (← ofAssertion? o.draft all keyword v)

/-- Reads a list of schemas. -/
def readList (doc : SchemaDocument) (o : SchemaOrigin) : Json → Option (List Formula)
  | .arr vs => readAll doc o vs
  | _ => none

/-- Reads every schema of a list. -/
def readAll (doc : SchemaDocument) (o : SchemaOrigin) : List Json → Option (List Formula)
  | [] => some []
  | v :: rest => do
    let f ← read doc o v
    return f :: (← readAll doc o rest)

/-- Reads schemas by names. -/
def readMap (doc : SchemaDocument) (o : SchemaOrigin) : Json → Option (List (String × Formula))
  | .obj ms => readMembers doc o ms
  | _ => none

/-- Reads the schemas of a list of members. -/
def readMembers (doc : SchemaDocument) (o : SchemaOrigin) :
    List (String × Json) → Option (List (String × Formula))
  | [] => some []
  | (name, v) :: rest => do
    let f ← read doc o v
    return (name, f) :: (← readMembers doc o rest)

/-- Reads schemas or lists of names by names. -/
def readDependencies (doc : SchemaDocument) (o : SchemaOrigin) : Json → Option (List Formula)
  | .obj ms => readDependents doc o ms
  | _ => none

/-- Reads what the members of some names bring with them. -/
def readDependents (doc : SchemaDocument) (o : SchemaOrigin) :
    List (String × Json) → Option (List Formula)
  | [] => some []
  | (name, v) :: rest => do
    let f ←
      match v with
      | .arr vs => (Shape.names? (.arr vs)).map .required
      | v => read doc o v
    return .dependent name f :: (← readDependents doc o rest)

end

/-- Reads the schema of a place, whose origin is known. -/
def ofPlace? (doc : SchemaDocument) (p : SchemaPlace) : Option Formula :=
  match p.value with
  | .obj ms => ofObject? doc p.origin ms (readKeywords doc p.origin ms ms)
  | v => read doc p.origin v

end Formula

namespace JsonSchema

/-- Reads the places that are waited for, and all that these refer to. -/
def readPlaces (doc : SchemaDocument) :
    Nat → List Target → List (Target × Formula) → Option (List (Target × Formula))
  | fuel, waiting, known =>
    match fuel, waiting.filter fun t => !known.any (·.1 == t) with
    | _, [] => some known
    | 0, _ => none
    | fuel + 1, t :: rest => do
      let f ← Formula.ofPlace? doc (← doc.place? t)
      readPlaces doc fuel (f.targets ++ rest) ((t, f) :: known)

/-- The draft that a schema names, or else the latest. -/
def draft? (v : Json) : Option Draft :=
  match v.member? "$schema" with
  | some (.str s) => Draft.named? s
  | _ => some .year2020

/-- Reads a schema. -/
def read (v : Json) : Option JsonSchema := do
  let d ← draft? v
  if !d.knows v then none
  else
    let doc ← SchemaDocument.ofSchema d v
    if !doc.isClosed then none
    else
      let start : Target := ⟨doc.root.origin.base.text, ""⟩
      return { start, places := ← readPlaces doc (2 * v.extent) [start] [] }

end JsonSchema

end LayeredAccess
