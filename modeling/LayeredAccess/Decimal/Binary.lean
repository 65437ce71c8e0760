/-
  LayeredAccess.Decimal.Binary

  Doubles as exact numbers: a finite double is a sign, a natural `m` and a power
  of two, and whatever must not round (truncation, remainders, the choice of
  digits) is computed on those.
-/

namespace LayeredAccess.Decimal

/-- The magnitude `m · 2^q` of a finite double. -/
structure Binary where
  m : Nat
  q : Int
  /-- The gap to the next smaller magnitude is half the gap to the next larger one. -/
  narrowBelow : Bool
  deriving DecidableEq, Repr

namespace Binary

/-- The magnitude that the bits of a finite double stand for. -/
def ofBits (b : UInt64) : Binary :=
  let e := ((b >>> 52) &&& 0x7FF).toNat
  let f := (b &&& 0xFFFFFFFFFFFFF).toNat
  if e == 0 then ⟨f, -1074, false⟩ else ⟨4503599627370496 + f, (e : Int) - 1075, f == 0 && e > 1⟩

/-- The magnitude of a finite double. -/
def ofFloat (x : Float) : Binary := ofBits x.toBits

/-- Numerator and denominator of `m · 2^q`. -/
def ratio (b : Binary) : Nat × Nat := (b.m * Nat.pow 2 b.q.toNat, Nat.pow 2 (-b.q).toNat)

/-- The integral part of the magnitude. -/
def floor (b : Binary) : Nat := b.ratio.1 / b.ratio.2

/-- Has the magnitude no fraction? -/
def isWhole (b : Binary) : Bool := b.ratio.1 % b.ratio.2 == 0

end Binary

/-- Is the sign bit set? -/
def isNegative (x : Float) : Bool := (x.toBits >>> 63) != 0

/-- Neither infinite nor NaN. -/
def isFinite (x : Float) : Bool := ((x.toBits >>> 52) &&& 0x7FF) != 0x7FF

/-- A finite double without a fraction. -/
def isWhole (x : Float) : Bool := isFinite x && (Binary.ofFloat x).isWhole

/-- The integer next to a finite double on the side of zero. -/
def truncate (x : Float) : Int :=
  let n := (Binary.ofFloat x).floor
  if isNegative x then -(n : Int) else n

/-- The double nearest to `n · 2^q`, with the given sign. -/
def ofDyadic (negative : Bool) (n : Nat) (q : Int) : Float :=
  let x := if 0 ≤ q then Float.ofNat (n * Nat.pow 2 q.toNat)
    else Float.ofScientific (n * Nat.pow 5 (-q).toNat) true (-q).toNat
  if negative then -x else x

/-- The exact remainder of a division that rounds towards zero. It has the sign of the
dividend, is the dividend itself where the divisor is infinite, and there is none for an
infinite dividend or a zero divisor. -/
def remainder (x y : Float) : Float :=
  let nan : Float := 0.0 / 0.0
  if x.isNaN || y.isNaN || !isFinite x then nan
  else if !isFinite y then x
  else
    let a := Binary.ofFloat x
    let b := Binary.ofFloat y
    if b.m == 0 then nan
    else
      let q := min a.q b.q
      let dividend := a.m * Nat.pow 2 (a.q - q).toNat
      ofDyadic (isNegative x) (dividend % (b.m * Nat.pow 2 (b.q - q).toNat)) q

end LayeredAccess.Decimal
