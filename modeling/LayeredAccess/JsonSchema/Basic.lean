/-
  LayeredAccess.JsonSchema.Basic

  JSON schemas as formulas about JSON values, and when a value satisfies one.
  Numbers count by size whatever their kind: `1` and `1.0` are equal here. A
  formula about values of one kind holds of all others.

  A schema may refer to places of the document that it stands in. They make a
  table of formulas, in which a formula names others; `JsonSchema.answer` follows
  such names. Besides being true or false of a value, a formula describes some of
  the value's members and items, and others can then speak about the rest.
-/
import LayeredAccess.JsonSchema.Draft

namespace LayeredAccess

/-- What of a value can be counted. -/
inductive Countable where
  /-- The characters of a text. -/
  | characters
  /-- The items of an array. -/
  | items
  /-- The members of an object. -/
  | members
  deriving DecidableEq, Inhabited, Repr

/-- The count, if the value has one. -/
def Countable.count? : Countable → Json → Option Nat
  | characters, .str s => some s.length
  | items, .arr vs => some vs.length
  | members, .obj ms => some ms.length
  | _, _ => none

/-! ## Formulas -/

/-- A formula about values. -/
inductive Formula where
  | constant (accepts : Bool)
  | every (formulas : List Formula)
  | any (formulas : List Formula)
  | exactlyOne (formulas : List Formula)
  | not (formula : Formula)
  | conditional (test yes no : Formula)
  /-- The value is of one of the kinds. -/
  | ofKind (kinds : List JsonKind)
  /-- The value is one of these. -/
  | oneOf (values : List Json)
  /-- A number whose order to a bound satisfies a condition. -/
  | bounded (bound : Json) (test : Ordering → Bool)
  /-- A number that is a multiple of another. -/
  | multipleOf (unit : Json)
  /-- A count that satisfies a condition. -/
  | counted (what : Countable) (test : Nat → Bool)
  /-- A text with a match of the pattern. -/
  | matching (pattern : TextPattern)
  /-- A text that satisfies a condition. -/
  | written (test : String → Bool)
  /-- An array without repetition. -/
  | distinctItems
  /-- An object with these members. -/
  | required (names : List String)
  /-- A member, if there is one of this name. -/
  | member (name : String) (formula : Formula)
  /-- All members with a name that matches. -/
  | matchingMembers (pattern : TextPattern) (formula : Formula)
  /-- All members of other names, which match no pattern. -/
  | otherMembers (known : List String) (patterns : List TextPattern) (formula : Formula)
  /-- All members that the others do not describe. -/
  | restMembers (others : List Formula) (formula : Formula)
  /-- The names of all members. -/
  | memberNames (formula : Formula)
  /-- An object with a member of this name. -/
  | dependent (name : String) (formula : Formula)
  /-- An item, if there is one at this place. -/
  | item (index : Nat) (formula : Formula)
  /-- All items from a place on. -/
  | itemsFrom (first : Nat) (formula : Formula)
  /-- All items that the others do not describe. -/
  | restItems (others : List Formula) (formula : Formula)
  /-- An array where so many items satisfy the formula, which may count as a description of them. -/
  | containing (formula : Formula) (test : Nat → Bool) (describes : Bool)
  /-- The value is a schema of a draft. -/
  | wellFormed (draft : Draft)
  /-- The formula of another place holds. -/
  | place (target : Target)

/-- What can be asked of a formula and a value. -/
inductive Question where
  /-- Does the formula hold of the value? -/
  | holds
  /-- Does it describe the member of this name? -/
  | member (name : String)
  /-- Does it describe the item at this place? -/
  | item (index : Nat)
  deriving DecidableEq, Inhabited, Repr

namespace Formula

instance : Inhabited Formula := ⟨.constant true⟩

/-- Is an item of a value, if it is an array, described by a formula about items? -/
def isItemWith (test : Json → Bool) : Question → Json → Bool
  | .item i, .arr vs => vs[i]?.any test
  | _, _ => false

mutual

/-- Does a formula hold of a value, if other places answer so? -/
def accepts (answer : Target → Question → Json → Bool) : Formula → Json → Bool
  | .constant b, _ => b
  | .every fs, v => countAccepting answer fs v == fs.length
  | .any fs, v => countAccepting answer fs v != 0
  | .exactlyOne fs, v => countAccepting answer fs v == 1
  | .not f, v => !accepts answer f v
  | .conditional test yes no, v =>
    if accepts answer test v then accepts answer yes v else accepts answer no v
  | .ofKind kinds, v => kinds.any (·.holds v)
  | .oneOf values, v => values.any (·.sameBySize v)
  | .bounded bound test, v => ((v.compareSize? bound).map test).getD true
  | .multipleOf unit, v => v.ratio?.isNone || v.isMultipleOf unit
  | .counted what test, v => ((what.count? v).map test).getD true
  | .matching p, v => v.asString?.all p.isMatch
  | .written test, v => v.asString?.all test
  | .distinctItems, v => v.asArray?.all Json.areDistinct
  | .required names, v => v.asObject?.all fun ms => names.all (KeyMap.contains ms)
  | .member name f, v => (v.member? name).all (accepts answer f)
  | .matchingMembers p f, v =>
    v.asObject?.all fun ms => ms.all fun m => !p.isMatch m.1 || accepts answer f m.2
  | .otherMembers known patterns f, v =>
    v.asObject?.all fun ms => ms.all fun m =>
      known.contains m.1 || patterns.any (·.isMatch m.1) || accepts answer f m.2
  | .restMembers others f, v =>
    v.asObject?.all fun ms => ms.all fun m =>
      someDescribe answer others (.member m.1) v || accepts answer f m.2
  | .memberNames f, v =>
    v.asObject?.all fun ms => ms.all fun m => accepts answer f (.str m.1)
  | .dependent name f, v => (v.member? name).all fun _ => accepts answer f v
  | .item i f, v => v.asArray?.all fun vs => vs[i]?.all (accepts answer f)
  | .itemsFrom first f, v => v.asArray?.all fun vs => (vs.drop first).all (accepts answer f)
  | .restItems others f, v =>
    v.asArray?.all fun vs => vs.zipIdx.all fun e =>
      someDescribe answer others (.item e.2) v || accepts answer f e.1
  | .containing f test _, v => v.asArray?.all fun vs => test (vs.countP (accepts answer f))
  | .wellFormed d, v => d.knows v
  | .place t, v => answer t .holds v

/-- The number of formulas of a list that hold of a value. -/
def countAccepting (answer : Target → Question → Json → Bool) : List Formula → Json → Nat
  | [], _ => 0
  | f :: rest, v => (if accepts answer f v then 1 else 0) + countAccepting answer rest v

/-- Does a formula that holds of a value describe the part of it that is asked for? -/
def describes (answer : Target → Question → Json → Bool) : Formula → Question → Json → Bool
  | .every fs, q, v => someDescribe answer fs q v
  | .any fs, q, v => someHold answer fs q v
  | .exactlyOne fs, q, v => someHold answer fs q v
  | .conditional test yes no, q, v =>
    if accepts answer test v then describes answer test q v || describes answer yes q v
    else describes answer no q v
  | .member name _, q, _ => q == .member name
  | .matchingMembers p _, .member name, _ => p.isMatch name
  | .otherMembers known patterns _, .member name, _ =>
    !known.contains name && !patterns.any (·.isMatch name)
  | .restMembers _ _, .member _, _ => true
  | .dependent name f, q, v => (v.member? name).isSome && describes answer f q v
  | .item i _, q, _ => q == .item i
  | .itemsFrom first _, .item i, _ => first ≤ i
  | .restItems _ _, .item _, _ => true
  | .containing f _ true, q, v => isItemWith (accepts answer f) q v
  | .place t, q, v => answer t q v
  | _, _, _ => false

/-- Does one of several formulas that hold of a value describe the part? -/
def someDescribe (answer : Target → Question → Json → Bool) :
    List Formula → Question → Json → Bool
  | [], _, _ => false
  | f :: rest, q, v => describes answer f q v || someDescribe answer rest q v

/-- Does one of several formulas hold of a value and describe the part? -/
def someHold (answer : Target → Question → Json → Bool) :
    List Formula → Question → Json → Bool
  | [], _, _ => false
  | f :: rest, q, v =>
    (accepts answer f v && describes answer f q v) || someHold answer rest q v

end

mutual

/-- The places that a formula refers to. -/
def targets : Formula → List Target
  | .every fs | .any fs | .exactlyOne fs => allTargets fs
  | .not f | .member _ f | .matchingMembers _ f | .otherMembers _ _ f | .memberNames f
  | .dependent _ f | .item _ f | .itemsFrom _ f | .containing f _ _ => targets f
  | .conditional test yes no => targets test ++ targets yes ++ targets no
  | .restMembers others f | .restItems others f => allTargets others ++ targets f
  | .place t => [t]
  | _ => []

/-- The places that some formulas refer to. -/
def allTargets : List Formula → List Target
  | [] => []
  | f :: rest => targets f ++ allTargets rest

end

end Formula

/-! ## Schemas -/

mutual

/-- The number of values in a value, names of members included. -/
def Json.extent : Json → Nat
  | .arr vs => Json.itemsExtent vs + 1
  | .obj ms => Json.membersExtent ms + 1
  | _ => 1

/-- The number of values in some items. -/
def Json.itemsExtent : List Json → Nat
  | [] => 0
  | v :: rest => Json.extent v + Json.itemsExtent rest

/-- The number of values in some members. -/
def Json.membersExtent : List (String × Json) → Nat
  | [] => 0
  | (_, v) :: rest => Json.extent v + 1 + Json.membersExtent rest

end

/-- A schema: the formulas of the places of a document that it needs, and the place to begin at. -/
structure JsonSchema where
  start : Target
  places : List (Target × Formula)
  deriving Inhabited

namespace JsonSchema

/-- A question to a place about a value. -/
structure Step where
  target : Target
  question : Question
  value : Json

/-- Are two steps the same? -/
def Step.same (a b : Step) : Bool :=
  a.target == b.target && a.question == b.question && a.value == b.value

/-- The answer of a place. Where a question has led to itself twice, the formula holds and
describes nothing. -/
def answer (s : JsonSchema) : Nat → List Step → Target → Question → Json → Bool
  | 0, _, _, q, _ => q == .holds
  | fuel + 1, steps, t, q, v =>
    let step : Step := ⟨t, q, v⟩
    if 2 ≤ steps.countP step.same then q == .holds
    else
      match s.places.find? (·.1 == t) with
      | none => false
      | some (_, f) =>
        match q with
        | .holds => f.accepts (s.answer fuel (step :: steps)) v
        | q => f.describes (s.answer fuel (step :: steps)) q v

/-- More steps than a way of answers can have: each place is asked each question about each part at
most twice. -/
def stepLimit (s : JsonSchema) (v : Json) : Nat :=
  2 * (s.places.length + 1) * (v.extent + 1) * (v.extent + 1) + 1

/-- Does a value satisfy a schema? -/
def accepts (s : JsonSchema) (v : Json) : Bool :=
  s.answer (s.stepLimit v) [] s.start .holds v

end JsonSchema

end LayeredAccess
