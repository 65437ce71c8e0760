/-
  LayeredAccess.JsonSchema.Draft

  The drafts of the schema language, and the shapes that they give to the values
  of keywords. `Shape.fits` tells whether a value, down to the schemas in it, has
  a shape; keywords without a shape may have any value.
-/
import LayeredAccess.JsonSchema.Number
import LayeredAccess.JsonSchema.TextPattern
import LayeredAccess.JsonSchema.Uri

namespace LayeredAccess

/-- A draft of the schema language, by its number or its year. -/
inductive Draft where
  | four
  | six
  | seven
  | year2019
  | year2020
  deriving DecidableEq, Inhabited, Repr

namespace Draft

/-- The site that names the drafts. -/
def site : String := "json-schema.org"

/-- The drafts by the names that schemas give them, without a `#` at the end. -/
def names : List (String × Draft) :=
  let name (scheme path : String) : String := scheme ++ "://" ++ site ++ path
  [(name "http" "/draft-04/schema", four), (name "http" "/draft-06/schema", six),
   (name "http" "/draft-07/schema", seven), (name "https" "/draft/2019-09/schema", year2019),
   (name "https" "/draft/2020-12/schema", year2020)]

/-- A text without the signs `#` at its end. -/
def withoutMarks (s : String) : String :=
  String.ofList ((s.toList.reverse.dropWhile (· = '#')).reverse)

/-- The draft of a name. -/
def named? (s : String) : Option Draft :=
  (names.find? (·.1 == withoutMarks s)).map (·.2)

/-- Has the draft a year for a name? In the others a reference is all that there is of a schema. -/
def isDated : Draft → Bool
  | four | six | seven => false
  | year2019 | year2020 => true

/-- Can the value of `items` be a list of schemas? -/
def hasItemLists : Draft → Bool
  | year2020 => false
  | _ => true

end Draft

/-! ## Kinds of values -/

/-- The kinds of values that schemas tell apart. -/
inductive JsonKind where
  | null
  | boolean
  /-- A number without a fraction. -/
  | integer
  /-- A number without a point. -/
  | pointless
  | number
  | string
  | array
  | object
  deriving DecidableEq, Inhabited, Repr

namespace JsonKind

/-- The kinds by name. -/
def names (d : Draft) : List (String × JsonKind) :=
  [("null", null), ("boolean", boolean), ("integer", if d = .four then pointless else integer),
   ("number", number), ("string", string), ("array", array), ("object", object)]

/-- The kind of a name. -/
def named? (d : Draft) (s : String) : Option JsonKind :=
  ((names d).find? (·.1 == s)).map (·.2)

/-- Is a value of this kind? -/
def holds (kind : JsonKind) : Json → Bool
  | .null => kind == null
  | .bool _ => kind == boolean
  | .int _ => kind == integer || kind == pointless || kind == number
  | .double x => kind == number || kind == integer && Decimal.isWhole x
  | .str _ => kind == string
  | .arr _ => kind == array
  | .obj _ => kind == object

end JsonKind

/-! ## Values of keywords -/

/-- The shape of a keyword's value. -/
inductive Shape where
  | any
  | text
  /-- A pattern. -/
  | pattern
  /-- An address. -/
  | address
  /-- An address or a reference to one. -/
  | reference
  | boolean
  | number
  /-- A number above zero. -/
  | positive
  /-- A natural number. -/
  | count
  | list
  /-- A list with something in it and without repetition. -/
  | distinct
  /-- Texts without repetition, so many at least. -/
  | names (least : Nat)
  /-- The name of a kind, or several without repetition. -/
  | kinds
  /-- A name for a place in a schema. -/
  | anchor
  /-- A text with no `#` but at its end. -/
  | identifier
  | schema
  /-- A schema or a truth value, where truth values are no schemas. -/
  | schemaOrFlag
  /-- Schemas, one at least. -/
  | schemas
  | schemaOrSchemas
  /-- Schemas by names. -/
  | schemaMap
  /-- Schemas by patterns. -/
  | patternMap
  /-- Lists of names by names. -/
  | nameMap
  /-- Truth values by names. -/
  | flagMap
  /-- A schema or a list of names. -/
  | dependency
  /-- These by names. -/
  | dependencyMap
  deriving DecidableEq, Inhabited, Repr

namespace Shape

/-- The shapes that all drafts know. -/
def common : List (String × Shape) :=
  [("$schema", .text), ("title", .text), ("description", .text), ("multipleOf", .positive),
   ("maximum", .number), ("minimum", .number), ("maxLength", .count), ("minLength", .count),
   ("maxItems", .count), ("minItems", .count), ("uniqueItems", .boolean),
   ("maxProperties", .count), ("minProperties", .count), ("definitions", .schemaMap),
   ("properties", .schemaMap), ("dependencies", .dependencyMap), ("type", .kinds),
   ("format", .text), ("allOf", .schemas), ("anyOf", .schemas), ("oneOf", .schemas),
   ("not", .schema)]

/-- The shapes of the oldest draft. -/
def ofFour : List (String × Shape) :=
  [("id", .text), ("pattern", .pattern), ("patternProperties", .schemaMap),
   ("exclusiveMaximum", .boolean), ("exclusiveMinimum", .boolean),
   ("additionalItems", .schemaOrFlag), ("items", .schemaOrSchemas), ("required", .names 1),
   ("additionalProperties", .schemaOrFlag), ("enum", .distinct)]

/-- The shapes of all later drafts. -/
def sinceSix : List (String × Shape) :=
  [("examples", .list), ("exclusiveMaximum", .number), ("exclusiveMinimum", .number),
   ("contains", .schema), ("propertyNames", .schema), ("required", .names 0),
   ("additionalProperties", .schema)]

/-- The shapes that the seventh draft adds. -/
def sinceSeven : List (String × Shape) :=
  [("$comment", .text), ("readOnly", .boolean), ("writeOnly", .boolean),
   ("contentMediaType", .text), ("contentEncoding", .text), ("if", .schema), ("then", .schema),
   ("else", .schema)]

/-- The shapes that only the drafts with truth values for schemas and with numbers for names
have. -/
def ofSixAndSeven : List (String × Shape) :=
  [("$schema", .address), ("$id", .reference), ("$ref", .reference), ("pattern", .pattern),
   ("patternProperties", .patternMap), ("items", .schemaOrSchemas),
   ("additionalItems", .schema)]

/-- The shapes that the drafts named by years add. -/
def since2019 : List (String × Shape) :=
  [("$id", .identifier), ("$ref", .text), ("pattern", .text), ("patternProperties", .schemaMap),
   ("$anchor", .anchor), ("$vocabulary", .flagMap), ("$defs", .schemaMap),
   ("$recursiveRef", .text), ("unevaluatedItems", .schema), ("unevaluatedProperties", .schema),
   ("dependentSchemas", .schemaMap), ("dependentRequired", .nameMap), ("maxContains", .count),
   ("minContains", .count), ("deprecated", .boolean), ("contentSchema", .schema)]

/-- The shapes of a draft, those of its own first. -/
def table : Draft → List (String × Shape)
  | .four => ofFour ++ common
  | .six => ("enum", .distinct) :: ofSixAndSeven ++ sinceSix ++ common
  | .seven => ("enum", .list) :: ofSixAndSeven ++ sinceSix ++ sinceSeven ++ common
  | .year2019 =>
    [("items", .schemaOrSchemas), ("additionalItems", .schema), ("enum", .list),
     ("$recursiveAnchor", .boolean)] ++ sinceSix ++ sinceSeven ++ since2019 ++ common
  | .year2020 =>
    [("items", .schema), ("prefixItems", .schemas), ("enum", .list), ("$dynamicRef", .text),
     ("$dynamicAnchor", .anchor), ("$recursiveAnchor", .anchor)]
      ++ sinceSix ++ sinceSeven ++ since2019 ++ common

/-- The shape of a keyword's value. -/
def ofKeyword (d : Draft) (keyword : String) : Shape :=
  (((table d).find? (·.1 == keyword)).map (·.2)).getD .any

/-- A natural number, which may be written with a point but for the oldest draft. -/
def count? (d : Draft) : Json → Option Nat
  | .int n => if 0 ≤ n then some n.toNat else none
  | .double x =>
    if d ≠ .four && Decimal.isWhole x && 0.0 ≤ x then some (Decimal.truncate x).toNat else none
  | _ => none

/-- A list of texts without repetition. -/
def names? (v : Json) : Option (List String) := do
  let vs ← v.asArray?
  if Json.areDistinct vs then vs.mapM Json.asString? else none

/-- The kinds that are named, at least one. -/
def kinds? (d : Draft) : Json → Option (List JsonKind)
  | .str s => (JsonKind.named? d s).map fun kind => [kind]
  | v => do
    let names ← names? v
    if names.isEmpty then none else names.mapM (JsonKind.named? d)

/-- Is a text the name of a place in a schema? -/
def isAnchor (d : Draft) (s : String) : Bool :=
  let isOther (c : Char) : Bool :=
    c = '-' || c = '.' || c = '_' || (d = .year2019 && c = ':')
  match s.toList with
  | [] => false
  | c :: rest =>
    (c.isAlpha || (d ≠ .year2019 && c = '_')) && rest.all fun c => c.isAlphanum || isOther c

/-- Has a text no `#` but at its end? -/
def isIdentifier (s : String) : Bool := s.toList.dropLast.all (· ≠ '#')

/-- Is a text a pattern? -/
def isPattern (s : String) : Bool := (TextPattern.read s).isSome

/-- Has a value a shape that has no schemas in it? -/
def holds (d : Draft) : Shape → Json → Bool
  | .any, _ => true
  | .text, v => v.asString?.isSome
  | .pattern, v => v.asString?.any isPattern
  | .address, v => v.asString?.any fun s => (Uri.read s).any (·.scheme.isSome)
  | .reference, v => v.asString?.any fun s => (Uri.read s).isSome
  | .boolean, v => v.asBool?.isSome
  | .number, v => v.ratio?.isSome
  | .positive, v => v.compareSize? (.int 0) == some .gt
  | .count, v => (count? d v).isSome
  | .list, v => v.asArray?.isSome
  | .distinct, v => v.asArray?.any fun vs => !vs.isEmpty && Json.areDistinct vs
  | .names least, v => (names? v).any fun names => least ≤ names.length
  | .kinds, v => (kinds? d v).isSome
  | .anchor, v => v.asString?.any (isAnchor d)
  | .identifier, v => v.asString?.any isIdentifier
  | .nameMap, v => v.asObject?.any fun ms => ms.all fun m => (names? m.2).isSome
  | .flagMap, v => v.asObject?.any fun ms => ms.all fun m => m.2.asBool?.isSome
  | _, _ => false

/-- In the oldest draft a bound is exclusive only where there is one. -/
def hasBounds (d : Draft) (ms : List (String × Json)) : Bool :=
  let has (k : String) : Bool := ms.any (·.1 == k)
  d ≠ .four ||
    ((!has "exclusiveMaximum" || has "maximum") && (!has "exclusiveMinimum" || has "minimum"))

mutual

/-- Has a value a shape? -/
def fits (d : Draft) : Shape → Json → Bool
  | .schema, .bool _ => d ≠ .four
  | .schemaOrFlag, .bool _ => true
  | .schemaOrSchemas, .bool _ | .dependency, .bool _ => d ≠ .four
  | .schema, .obj ms | .schemaOrFlag, .obj ms | .schemaOrSchemas, .obj ms
  | .dependency, .obj ms => hasBounds d ms && keywordsFit d ms
  | .schemas, .arr vs | .schemaOrSchemas, .arr vs => !vs.isEmpty && allFit d .schema vs
  | .dependency, .arr vs => holds d (.names (if d = .four then 1 else 0)) (.arr vs)
  | .schemaMap, .obj ms => membersFit d .schema ms
  | .patternMap, .obj ms => ms.all (fun m => isPattern m.1) && membersFit d .schema ms
  | .dependencyMap, .obj ms => membersFit d .dependency ms
  | shape, v => holds d shape v

/-- Has the value of every keyword its shape? -/
def keywordsFit (d : Draft) : List (String × Json) → Bool
  | [] => true
  | (keyword, v) :: rest => fits d (ofKeyword d keyword) v && keywordsFit d rest

/-- Have all values a shape? -/
def allFit (d : Draft) (shape : Shape) : List Json → Bool
  | [] => true
  | v :: rest => fits d shape v && allFit d shape rest

/-- Have the values of all members a shape? -/
def membersFit (d : Draft) (shape : Shape) : List (String × Json) → Bool
  | [] => true
  | (_, v) :: rest => fits d shape v && membersFit d shape rest

end

end Shape

/-- Is a value a schema of a draft? -/
def Draft.knows (d : Draft) (schema : Json) : Bool := Shape.fits d .schema schema

end LayeredAccess
