/-
  LayeredAccess.Decimal.Shortest

  The fewest decimal digits that read back as a given double, and of those the
  decimal nearest to it. The choice is made in exact arithmetic: `readsBack`
  says which decimals round to the double, and `shortest` tries 1, 2, … 17
  digits on the decimal grid around it.
-/
import LayeredAccess.Decimal.Binary

namespace LayeredAccess.Decimal

/-- The decimal `digits · 10^exp`. -/
structure Digits where
  digits : Nat
  exp : Int
  deriving DecidableEq, Repr

/-- Which of two equally near candidates is taken. -/
inductive Tie where
  | toEven
  | up
  deriving DecidableEq, Repr

/-- The order of `a · 10^i` and `n · 2^j`. -/
def compareScaled (a : Nat) (i : Int) (n : Nat) (j : Int) : Ordering :=
  compare (a * Nat.pow 10 i.toNat * Nat.pow 2 (-j).toNat)
    (n * Nat.pow 2 j.toNat * Nat.pow 10 (-i).toNat)

/-- Does the decimal lie among the numbers that round to the double? They reach halfway to
either neighbour, the ends included exactly when `m` is even. -/
def Binary.readsBack (x : Binary) (d : Digits) : Bool :=
  let low := if x.narrowBelow then 4 * x.m - 1 else 4 * x.m - 2
  let high := 4 * x.m + 2
  let closed := x.m % 2 == 0
  let atLow := compareScaled d.digits d.exp low (x.q - 2)
  let atHigh := compareScaled d.digits d.exp high (x.q - 2)
  (atLow == .gt || (closed && atLow == .eq)) && (atHigh == .lt || (closed && atHigh == .eq))

/-- The least `k` with `m · 2^q < 10^k`, for a positive magnitude. -/
def Binary.scale (x : Binary) : Int :=
  let guess := ((x.m.log2 : Int) + x.q) * 1233 / 4096 - 1
  let below (k : Int) : Bool := compareScaled 1 k x.m x.q == .gt
  ((List.range 4).map fun (i : Nat) => guess + i).find? below |>.getD (guess + 4)

/-- The candidate of `n` digits, if one of the magnitude's two neighbours on that grid reads
back. -/
def Binary.candidate? (x : Binary) (tie : Tie) (k : Int) (n : Nat) : Option Digits :=
  let e := k - n
  let num := x.m * Nat.pow 2 x.q.toNat * Nat.pow 10 (-e).toNat
  let den := Nat.pow 2 (-x.q).toNat * Nat.pow 10 e.toNat
  let low := num / den
  let lowOk := x.readsBack ⟨low, e⟩
  let highOk := x.readsBack ⟨low + 1, e⟩
  match lowOk, highOk with
  | false, false => none
  | true, false => some ⟨low, e⟩
  | false, true => some ⟨low + 1, e⟩
  | true, true =>
    match compare (2 * num) ((2 * low + 1) * den) with
    | .lt => some ⟨low, e⟩
    | .gt => some ⟨low + 1, e⟩
    | .eq => match tie with
      | .up => some ⟨low + 1, e⟩
      | .toEven => some ⟨if low % 2 == 0 then low else low + 1, e⟩

/-- The decimal with its trailing zeros moved into the exponent. -/
def Digits.strip (d : Digits) : Digits :=
  if h : d.digits ≠ 0 ∧ d.digits % 10 = 0 then strip ⟨d.digits / 10, d.exp + 1⟩ else d
termination_by d.digits
decreasing_by exact Nat.div_lt_self (Nat.pos_of_ne_zero h.1) (by decide)

/-- The exact value of the magnitude as a decimal. -/
def Binary.exact (x : Binary) : Digits :=
  ⟨x.m * Nat.pow 2 x.q.toNat * Nat.pow 5 (-x.q).toNat, min x.q 0⟩

/-- The fewest digits that read back, for a positive magnitude. -/
def Binary.shortest (x : Binary) (tie : Tie) : Digits :=
  let k := x.scale
  let found := ((List.range 17).map (· + 1)).findSome? (x.candidate? tie k)
  (found.getD x.exact).strip

end LayeredAccess.Decimal
