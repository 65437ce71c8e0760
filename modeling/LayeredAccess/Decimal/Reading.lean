/-
  LayeredAccess.Decimal.Reading

  Decimal notation to the nearest double: digits with or without a point, an
  exponent, and the words for infinity and NaN. `nearest` rounds once, whatever
  the number of digits.
-/
import LayeredAccess.Decimal.Binary

namespace LayeredAccess.Decimal

/-- The number that a list of decimal digits stands for. -/
def digitsValue (ds : List Char) : Nat :=
  ds.foldl (fun n c => n * 10 + (c.toNat - '0'.toNat)) 0

/-- The double nearest to `n · 10^e`. Exponents far beyond the doubles are decided by the size of
the number alone. -/
def nearest (n : Nat) (e : Int) : Float :=
  if n = 0 then 0.0
  else
    let digits : Int := (Nat.toDigits 10 n).length
    if 400 < e + digits then 1.0 / 0.0
    else if e + digits < -400 then 0.0
    else if 0 ≤ e then Float.ofScientific n false e.toNat
    else Float.ofScientific n true (-e).toNat

/-- The value of an exponent's digits; what is beyond every use is as good as any. -/
def exponentValue (ds : List Char) : Nat := min (digitsValue (ds.take 20)) (1000000000000)

/-- Reads an exponent: a letter e of either case, a sign if need be, and digits. -/
def readExponent : List Char → Option (Int × List Char)
  | c :: rest =>
    if c = 'e' || c = 'E' then
      let (negative, rest) := match rest with
        | '+' :: rest => (false, rest)
        | '-' :: rest => (true, rest)
        | rest => (false, rest)
      let ds := rest.takeWhile Char.isDigit
      if ds.isEmpty then none
      else
        let e : Int := exponentValue (ds.dropWhile (· = '0'))
        some (if negative then -e else e, rest.dropWhile Char.isDigit)
    else none
  | [] => none

/-- Reads digits with or without a point, at least one of them, and an exponent if one follows. -/
def magnitude? (cs : List Char) : Option Float :=
  let whole := cs.takeWhile Char.isDigit
  let (fraction, rest) := match cs.dropWhile Char.isDigit with
    | '.' :: rest => (rest.takeWhile Char.isDigit, rest.dropWhile Char.isDigit)
    | rest => ([], rest)
  if whole.isEmpty && fraction.isEmpty then none
  else
    let n := digitsValue (whole ++ fraction)
    match rest with
    | [] => some (nearest n (-fraction.length))
    | rest =>
      match readExponent rest with
      | some (e, []) => some (nearest n (e - fraction.length))
      | _ => none

/-- The double that a text stands for: a sign if need be, and a magnitude, `inf`, `infinity` or
`nan` in any mixture of cases. -/
def float? (text : String) : Option Float :=
  let (negative, cs) := match text.toList with
    | '-' :: rest => (true, rest)
    | '+' :: rest => (false, rest)
    | cs => (false, cs)
  let word := String.ofList (cs.map Char.toLower)
  let x :=
    if word = "inf" || word = "infinity" then some (1.0 / 0.0)
    else if word = "nan" then some (0.0 / 0.0)
    else magnitude? cs
  x.map fun x => if negative then -x else x

/-- The integer that a text stands for: a sign if need be, and digits. A minus sign has to be
allowed. -/
def int? (allowMinus : Bool) (text : String) : Option Int :=
  let digits (cs : List Char) : Option Int :=
    if cs.isEmpty || !cs.all Char.isDigit then none else some (digitsValue cs)
  match text.toList with
  | '+' :: rest => digits rest
  | '-' :: rest => if allowMinus then (digits rest).map (-·) else none
  | cs => digits cs

end LayeredAccess.Decimal
