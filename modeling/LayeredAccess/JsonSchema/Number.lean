/-
  LayeredAccess.JsonSchema.Number

  Numbers of JSON values by their size, whatever their kind: their order, when
  one is a multiple of another, and when values are equal but for the kinds of
  their numbers.
-/
import LayeredAccess.Decimal.Shortest
import LayeredAccess.Json.Basic

namespace LayeredAccess

namespace Json

/-! ## Numbers -/

/-- Numerator and denominator of the exact value of a number. -/
def ratio? : Json → Option (Int × Nat)
  | .int n => some (n, 1)
  | .double x =>
    if Decimal.isFinite x then
      let (num, den) := (Decimal.Binary.ofFloat x).ratio
      some (if Decimal.isNegative x then (-(num : Int), den) else (num, den))
    else none
  | _ => none

/-- Numerator and denominator of a number as its shortest text has it. -/
def decimalRatio? : Json → Option (Int × Nat)
  | .int n => some (n, 1)
  | .double x =>
    if Decimal.isFinite x then
      let d := (Decimal.Binary.ofFloat x).shortest .toEven
      let num : Int := d.digits * Nat.pow 10 d.exp.toNat
      some (if Decimal.isNegative x then -num else num, Nat.pow 10 (-d.exp).toNat)
    else none
  | _ => none

/-- The order of two numbers by their exact size. -/
def compareSize? (a b : Json) : Option Ordering := do
  let (n, d) ← a.ratio?
  let (n', d') ← b.ratio?
  return compare (n * d') (n' * d)

/-- Has a number no fraction? -/
def isWholeNumber : Json → Bool
  | .int _ => true
  | .double x => Decimal.isWhole x
  | _ => false

/-- Is a number a whole multiple of another one that is above zero? Numbers are taken as doubles. A
multiple of a unit with a fraction is not negative, and both are then taken as their shortest texts
have them. -/
def isMultipleOf (a unit : Json) : Bool :=
  match a.asDouble?, unit.asDouble? with
  | some x, some y =>
    if Decimal.isWhole y then Decimal.isWhole x && Decimal.remainder x y == 0.0
    else if x == 0.0 then true
    else if x < y then false
    else
      match (Json.double x).decimalRatio?, (Json.double y).decimalRatio? with
      | some (n, d), some (n', d') => n * d' % (n' * d) == 0
      | _, _ => false
  | _, _ => false

/-! ## Equality by size -/

mutual

/-- Are two values equal, with numbers equal by size? -/
def sameBySize : Json → Json → Bool
  | .null, .null => true
  | .bool a, .bool b => a == b
  | .str a, .str b => a == b
  | .arr a, .arr b => sameItemsBySize a b
  | .obj a, .obj b => sameMembersBySize a b
  | a, b => compareSize? a b == some .eq

/-- Are two lists equal item by item? -/
def sameItemsBySize : List Json → List Json → Bool
  | [], [] => true
  | a :: as, b :: bs => sameBySize a b && sameItemsBySize as bs
  | _, _ => false

/-- Do two member lists have the same keys with equal values? -/
def sameMembersBySize : List (String × Json) → List (String × Json) → Bool
  | [], [] => true
  | (k, a) :: as, (l, b) :: bs => k == l && sameBySize a b && sameMembersBySize as bs
  | _, _ => false

end

/-- Are no two items equal? -/
def areDistinct : List Json → Bool
  | [] => true
  | v :: rest => !rest.any (sameBySize v) && areDistinct rest

end Json

end LayeredAccess
