/-
  LayeredAccess.Compliance.Builtin

  The rules that are always there: bounds, wholeness and precision of numbers,
  patterns and lengths of texts, and JSON schemas.

  Bounds and lengths are compared as doubles.
-/
import LayeredAccess.Compliance.Rule
import LayeredAccess.Decimal.Binary
import LayeredAccess.JsonSchema.Reader

namespace LayeredAccess.Compliance.Builtin

/-! ## Arguments -/

/-- The first argument as a number. -/
def numberArg (rule : String) (args : List Json) : Except RuleFault Float :=
  match args.head?.bind Json.asDouble? with
  | some x => .ok x
  | none => .error (.expects rule "numeric argument")

/-- Does a bound belong to what it bounds? It does unless the second argument says no. -/
def isInclusive (args : List Json) : Bool := (args[1]?.bind Json.asBool?).getD true

/-! ## Numbers -/

/-- Is the value a number above a bound? -/
def min : NativeRule := fun value args => do
  let bound ← numberArg "number.min" args
  return value.asDouble?.any fun x => if isInclusive args then bound ≤ x else bound < x

/-- Is the value a number below a bound? -/
def max : NativeRule := fun value args => do
  let bound ← numberArg "number.max" args
  return value.asDouble?.any fun x => if isInclusive args then x ≤ bound else x < bound

/-- The integers up to this one and their neighbours are told apart by doubles. -/
def maxSafeInteger : Nat := 9007199254740991

/-- Is the value a whole number within the safe integers? -/
def int : NativeRule := fun value _ =>
  .ok (match value with
    | .int n => n.natAbs ≤ maxSafeInteger
    | .double x => Decimal.isWhole x && (Decimal.truncate x).natAbs ≤ maxSafeInteger
    | _ => false)

/-- The text of a number; whole numbers below 10^21 have no fraction. -/
def plainText (v : Json) : String :=
  match v with
  | .double x =>
    let n := Decimal.truncate x
    if Decimal.isWhole x && n.natAbs < 1000000000000000000000 then toString n else v.render
  | v => v.render

/-- The texts of numbers with so many digits behind the point. -/
def precisionPattern (digits : Nat) : String :=
  "^[0-9]+\\.([0-9]\x7b" ++ toString digits ++ "\x7d)$"

/-- Has the value, which must not be negative, so many digits behind the point? -/
def precision : NativeRule := fun value args => do
  match args.head?.bind Json.asNatural? with
  | none => throw (.expects "number.precision" "digit count")
  | some digits =>
    let p ← (Pattern.parse (precisionPattern digits)).mapError .pattern
    return value.asDouble?.isSome && p.isMatch (plainText value)

/-! ## Texts -/

/-- Does the value have a match of the pattern? -/
def matching : NativeRule := fun value args => do
  match args.head?.bind Json.asString?, value with
  | none, _ => throw (.expects "string.match" "pattern")
  | some pattern, .str s => return (← (Pattern.parse pattern).mapError .pattern).isMatch s
  | some _, value => throw (.unsuited "string.match" "match" value)

/-- The characters of a text or the items of an array. -/
def length (rule : String) : Json → Except RuleFault Nat
  | .str s => .ok s.length
  | .arr items => .ok items.length
  | value => .error (.unsuited rule "measure" value)

/-- Is the value at least so long? -/
def minLength : NativeRule := fun value args => do
  let bound ← numberArg "string.minLen" args
  return bound ≤ Float.ofNat (← length "string.minLen" value)

/-- Is the value at most so long? -/
def maxLength : NativeRule := fun value args => do
  let bound ← numberArg "string.maxLen" args
  return Float.ofNat (← length "string.maxLen" value) ≤ bound

/-! ## Schemas -/

/-- Does the value satisfy a JSON schema? -/
def valid : NativeRule := fun value args =>
  match args.head? with
  | none => .error (.expects "schema.valid" "JSON schema")
  | some schema =>
    match JsonSchema.read schema with
    | some s => .ok (s.accepts value)
    | none => .error .schema

/-! ## Modules -/

/-- The descriptions of a rule's arguments: type, and whether there has to be one. -/
def argList (described : List (String × Bool)) : List RuleArg :=
  described.map fun (kind, required) => { kind, required }

/-- A module from the names, arguments and judgements of its rules. -/
def module (name : String) (rules : List (String × List (String × Bool) × NativeRule)) :
    RuleModule where
  name := name
  rules := rules.map fun (rule, args, body) => .native name rule (argList args) body

/-- All rules that are always there. -/
def modules : List RuleModule :=
  [module "number"
     [("min", [("number", true), ("number", true), ("boolean", false)], min),
      ("max", [("number", true), ("number", true), ("boolean", false)], max),
      ("int", [("number", true)], int),
      ("precision", [("number", true), ("number", true)], precision)],
   module "string"
     [("match", [("string", true), ("string", true)], matching),
      ("minLen", [("string", true), ("number", true)], minLength),
      ("maxLen", [("string", true), ("number", true)], maxLength)],
   module "schema" [("valid", [("object", true), ("object", true)], valid)]]

end LayeredAccess.Compliance.Builtin
