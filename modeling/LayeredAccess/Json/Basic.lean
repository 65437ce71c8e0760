/-
  LayeredAccess.Json.Basic

  JSON values. A number written as an integer between −2^63 and 2^64 − 1 is kept
  exactly, every other number is a double; the two kinds are never equal, so `1`
  and `1.0` are different values. Objects list their members in key order.

  Equality of values (`==`) compares doubles as numbers, so the two zeros agree.
-/
import LayeredAccess.KeyMap

namespace LayeredAccess

/-- Two to the power 64: the number of integers that 64 bits hold. -/
abbrev wordLimit : Nat := 18446744073709551616

/-- Two to the power 63: the number of those without a sign. -/
abbrev signLimit : Nat := 9223372036854775808

/-- A JSON value. -/
inductive Json where
  | null
  | bool (value : Bool)
  | int (value : Int)
  | double (value : Float)
  | str (value : String)
  | arr (items : List Json)
  | obj (members : List (String × Json))
  deriving Inhabited

namespace Json

/-- The value of a field that may be absent; an explicit `null` counts as absent. -/
def toOption : Json → Option Json
  | .null => none
  | v => some v

/-- The value itself, or `null` where there is none. -/
def ofOption : Option Json → Json
  | none => .null
  | some v => v

/-- The member of an object under a key; nothing for other values. -/
def member? : Json → String → Option Json
  | .obj members, key => KeyMap.find? members key
  | _, _ => none

/-- The text of a string value. -/
def asString? : Json → Option String
  | .str s => some s
  | _ => none

/-- The truth value of a boolean. -/
def asBool? : Json → Option Bool
  | .bool b => some b
  | _ => none

/-- The items of an array. -/
def asArray? : Json → Option (List Json)
  | .arr items => some items
  | _ => none

/-- The members of an object. -/
def asObject? : Json → Option (KeyMap String Json)
  | .obj members => some members
  | _ => none

/-- The double nearest to a number, of any kind. -/
def asDouble? : Json → Option Float
  | .int n => some (Float.ofInt n)
  | .double x => some x
  | _ => none

/-- A natural number below 2^64 that is written as an integer. -/
def asNatural? : Json → Option Nat
  | .int n => if 0 ≤ n then some n.toNat else none
  | _ => none

/-- An object from its members, in any order; of two with one key the later stays. -/
def mkObj (members : List (String × Json)) : Json := .obj (KeyMap.ofList members)

/-- A list of texts. -/
def ofStrings (items : List String) : Json := .arr (items.map .str)

/-! ## Equality -/

mutual

/-- Are two values equal? Doubles are compared as numbers. -/
def same : Json → Json → Bool
  | .null, .null => true
  | .bool a, .bool b => a == b
  | .int a, .int b => a == b
  | .double a, .double b => a == b
  | .str a, .str b => a == b
  | .arr a, .arr b => sameItems a b
  | .obj a, .obj b => sameMembers a b
  | _, _ => false

/-- Are two lists of values equal item by item? -/
def sameItems : List Json → List Json → Bool
  | [], [] => true
  | a :: as, b :: bs => same a b && sameItems as bs
  | _, _ => false

/-- Do two member lists have the same keys with equal values? -/
def sameMembers : List (String × Json) → List (String × Json) → Bool
  | [], [] => true
  | (k, a) :: as, (l, b) :: bs => k == l && same a b && sameMembers as bs
  | _, _ => false

end

instance : BEq Json := ⟨same⟩

/-! ## Depth -/

mutual

/-- How deeply a value nests: one more than the deepest of its parts. -/
def depth : Json → Nat
  | .arr items => itemsDepth items + 1
  | .obj members => membersDepth members + 1
  | _ => 1

/-- The depth of the deepest item. -/
def itemsDepth : List Json → Nat
  | [] => 0
  | v :: rest => max (depth v) (itemsDepth rest)

/-- The depth of the deepest member. -/
def membersDepth : List (String × Json) → Nat
  | [] => 0
  | (_, v) :: rest => max (depth v) (membersDepth rest)

end

/-! ## Numbers of integer kind -/

/-- The integers that a JSON text can hold exactly. -/
def inIntegerRange (n : Int) : Bool := -signLimit ≤ n && n < wordLimit

end Json

end LayeredAccess
