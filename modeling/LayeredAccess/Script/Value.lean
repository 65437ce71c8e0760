/-
  LayeredAccess.Script.Value

  The values that scripts compute with. Integers are signed or unsigned words
  of 64 bits; numbers of different kinds compare by size. `Value.ofJson` gives
  the value that a script sees for a JSON value.
-/
import LayeredAccess.Json.Basic

namespace LayeredAccess.Script

/-- The keys of maps. -/
inductive Key where
  | int (n : Int)
  | uint (n : Nat)
  | bool (b : Bool)
  | str (s : String)
  deriving DecidableEq, Inhabited, Repr

/-- Where a list or a map was made: the steps to the place in the script, last first, with the
number of the item for every loop on the way. What was made outside of the script has no steps. -/
abbrev Origin := List Nat

/-- A value. The entries of a map have different keys; their order means nothing. -/
inductive Value where
  | null
  | bool (b : Bool)
  | int (n : Int)
  | uint (n : Nat)
  | float (x : Float)
  | str (s : String)
  | list (origin : Origin) (items : List Value)
  | map (origin : Origin) (entries : List (Key × Value))
  /-- A function by its name, with the value it is to be called on. -/
  | function (name : String) (target : Value)
  deriving Inhabited

/-- The integers of 64 bits with a sign. -/
def isInt64 (n : Int) : Bool := -signLimit ≤ n && n < signLimit

namespace Value

/-! ## From JSON -/

mutual

/-- The value that a script sees for a JSON value: integers are signed wherever they fit. -/
def ofJson : Json → Value
  | .null => .null
  | .bool b => .bool b
  | .int n => if n < signLimit then .int n else .uint n.toNat
  | .double x => .float x
  | .str s => .str s
  | .arr items => .list [] (ofItems items)
  | .obj members => .map [] (ofMembers members)

/-- The values for the items of an array. -/
def ofItems : List Json → List Value
  | [] => []
  | v :: rest => ofJson v :: ofItems rest

/-- The entries for the members of an object. -/
def ofMembers : List (String × Json) → List (Key × Value)
  | [] => []
  | (k, v) :: rest => (.str k, ofJson v) :: ofMembers rest

end

/-- The value that a script sees for its arguments. -/
def ofArgs (args : List Json) : Value := .list [] (ofItems args)

/-! ## Comparison -/

/-- Are two origins one place in the script? -/
def sameOrigin (a b : Origin) : Bool := !a.isEmpty && a == b

/-- The order of two doubles; none if one of them is NaN. -/
def compareFloats (x y : Float) : Option Ordering :=
  if x < y then some .lt else if x == y then some .eq else if y < x then some .gt else none

/-- The order of two numbers; none for other values. Integers compare exactly, and by their nearest
doubles with a double. -/
def compareNumbers : Value → Value → Option Ordering
  | .int a, .int b => some (compare a b)
  | .uint a, .uint b => some (compare a b)
  | .int a, .uint b => some (compare a b)
  | .uint a, .int b => some (compare (a : Int) b)
  | .float a, .float b => compareFloats a b
  | .int a, .float b => compareFloats (Float.ofInt a) b
  | .float a, .int b => compareFloats a (Float.ofInt b)
  | .uint a, .float b => compareFloats (Float.ofNat a) b
  | .float a, .uint b => compareFloats a (Float.ofNat b)
  | _, _ => none

mutual

/-- Are two values equal? Numbers are equal by size, other values within their kind. A list or a
map equals itself, even if something in it, which is then no number, does not. -/
def same : Value → Value → Bool
  | .null, .null => true
  | .bool a, .bool b => a == b
  | .str a, .str b => a == b
  | .list p a, .list q b => sameOrigin p q || sameItems a b
  | .map p a, .map q b => sameOrigin p q || (a.length == b.length && sameEntries a b)
  | .function f a, .function g b => f == g && same a b
  | a, b => compareNumbers a b == some .eq

/-- Are two lists of values equal item by item? -/
def sameItems : List Value → List Value → Bool
  | [], [] => true
  | a :: as, b :: bs => same a b && sameItems as bs
  | _, _ => false

/-- Does a map hold entries with equal values? -/
def sameEntries : List (Key × Value) → List (Key × Value) → Bool
  | [], _ => true
  | (k, a) :: rest, other =>
    (match KeyMap.find? other k with
      | some b => same a b
      | none => false) && sameEntries rest other

end

/-- The order of two values, if they can be ordered. -/
def order? : Value → Value → Option Ordering
  | .null, .null => some .eq
  | .bool a, .bool b => some (compare a b)
  | .str a, .str b => some (compare a b)
  | a, b => compareNumbers a b

/-! ## Reading values -/

/-- Does a value count as true? Nothing, zero and whatever is empty does not. -/
def isTruthy : Value → Bool
  | .null => false
  | .bool b => b
  | .int n => n != 0
  | .uint n => n != 0
  | .float x => x != 0.0
  | .str s => !s.isEmpty
  | .list _ items => !items.isEmpty
  | .map _ entries => !entries.isEmpty
  | .function _ _ => false

/-- The value as a key of a map, if it can be one. -/
def toKey? : Value → Option Key
  | .int n => some (.int n)
  | .uint n => some (.uint n)
  | .bool b => some (.bool b)
  | .str s => some (.str s)
  | _ => none

end Value

namespace Key

/-- The key as a value. -/
def toValue : Key → Value
  | int n => .int n
  | uint n => .uint n
  | bool b => .bool b
  | str s => .str s

/-- An integer key with its sign dropped or added, if the other kind has the number. -/
def otherSign? : Key → Option Key
  | int n => if 0 ≤ n then some (.uint n.toNat) else none
  | uint n => if n < signLimit then some (.int n) else none
  | _ => none

end Key

namespace Value

/-- The value under a key; an integer key also finds its number with the other sign. -/
def lookup? (entries : List (Key × Value)) (k : Key) : Option Value :=
  (KeyMap.find? entries k).orElse fun _ => k.otherSign?.bind (KeyMap.find? entries ·)

/-- The entries with one added or replaced. -/
def setEntry (entries : List (Key × Value)) (k : Key) (v : Value) : List (Key × Value) :=
  if KeyMap.contains entries k then KeyMap.modify entries k fun _ => v else entries ++ [(k, v)]

end Value

/-! ## Diagnostics -/

/-- A key as diagnostics show it. -/
def Key.toString : Key → String
  | int n => ToString.toString n
  | uint n => ToString.toString n
  | bool b => ToString.toString b
  | str s => s

namespace Value

mutual

/-- The value with the kind of each of its parts. -/
def tagged : Value → Json
  | .null => .arr [.str "null"]
  | .bool b => .arr [.str "bool", .bool b]
  | .int n => .arr [.str "int", .str (toString n)]
  | .uint n => .arr [.str "uint", .str (toString n)]
  | .float x => .arr [.str "float", .double x]
  | .str s => .arr [.str "string", .str s]
  | .list _ items => .arr [.str "list", .arr (taggedItems items)]
  | .map _ entries =>
    let sorted := KeyMap.ofList (taggedEntries entries)
    .arr [.str "map", .arr (sorted.map fun e => .arr [.str e.1, e.2])]
  | .function name target => .arr [.str "function", .str name, tagged target]

/-- The items of a list with their kinds. -/
def taggedItems : List Value → List Json
  | [] => []
  | v :: rest => tagged v :: taggedItems rest

/-- The entries of a map with the kinds of their values. -/
def taggedEntries : List (Key × Value) → List (String × Json)
  | [] => []
  | (k, v) :: rest => (k.toString, tagged v) :: taggedEntries rest

end

end Value

end LayeredAccess.Script
