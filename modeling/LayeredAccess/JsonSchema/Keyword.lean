/-
  LayeredAccess.JsonSchema.Keyword

  The keywords that hold schemas or lead to them, by what they say. Which of them
  there are depends on the draft.
-/
import LayeredAccess.JsonSchema.Draft

namespace LayeredAccess

/-- What a keyword says. -/
inductive Keyword where
  /-- The schema of another place holds. -/
  | reference
  /-- The schema of the address holds. -/
  | selfReference
  | not
  | allOf
  | anyOf
  | oneOf
  /-- The condition of a choice. -/
  | test
  /-- What holds where the condition does. -/
  | yes
  /-- What holds where the condition does not. -/
  | no
  /-- Schemas of members. -/
  | members
  /-- Schemas of members by patterns of their names. -/
  | matchingMembers
  /-- The schema of the members that these two do not describe. -/
  | otherMembers
  /-- The schema of the members that nothing else describes. -/
  | restMembers
  /-- The schema of the names of members. -/
  | memberNames
  /-- What objects with a member satisfy. -/
  | dependents
  /-- What these satisfy, or which other members they have. -/
  | dependencies
  /-- Schemas of the first items. -/
  | firstItems
  /-- The schema of the items, or schemas of the first. -/
  | items
  /-- The schema of the items behind these. -/
  | otherItems
  /-- The schema of the items that nothing else describes. -/
  | restItems
  /-- The schema of some items. -/
  | contained
  /-- A keyword without schemas. -/
  | assertion
  deriving DecidableEq, Inhabited, Repr

namespace Keyword

/-- The keywords that all drafts have. -/
def common : List (String × Keyword) :=
  [("$ref", reference), ("not", not), ("allOf", allOf), ("anyOf", anyOf), ("oneOf", oneOf),
   ("properties", members), ("patternProperties", matchingMembers),
   ("additionalProperties", otherMembers), ("dependencies", dependencies), ("items", items)]

/-- The keywords of all drafts but the oldest. -/
def sinceSix : List (String × Keyword) := [("propertyNames", memberNames), ("contains", contained)]

/-- The keywords that the seventh draft adds. -/
def sinceSeven : List (String × Keyword) := [("if", test), ("then", yes), ("else", no)]

/-- The keywords that the drafts named by years add. -/
def since2019 : List (String × Keyword) :=
  [("dependentSchemas", dependents), ("unevaluatedProperties", restMembers),
   ("unevaluatedItems", restItems)]

/-- The keywords of a draft. -/
def table : Draft → List (String × Keyword)
  | .four => ("additionalItems", otherItems) :: common
  | .six => ("additionalItems", otherItems) :: sinceSix ++ common
  | .seven => ("additionalItems", otherItems) :: sinceSeven ++ sinceSix ++ common
  | .year2019 =>
    ("additionalItems", otherItems) :: ("$recursiveRef", selfReference) :: since2019 ++ sinceSeven
      ++ sinceSix ++ common
  | .year2020 =>
    ("prefixItems", firstItems) :: ("$dynamicRef", reference) :: since2019 ++ sinceSeven ++ sinceSix
      ++ common

/-- What a keyword of a name says. -/
def ofName (d : Draft) (name : String) : Keyword :=
  (((table d).find? (·.1 == name)).map (·.2)).getD .assertion

end Keyword

end LayeredAccess
