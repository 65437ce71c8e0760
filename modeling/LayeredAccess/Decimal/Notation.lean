/-
  LayeredAccess.Decimal.Notation

  How the chosen digits of a double are laid out. A `Notation` holds the
  decisions of one output format; `render` is the text of a double in it.
-/
import LayeredAccess.Decimal.Shortest

namespace LayeredAccess.Decimal

/-- The layout decisions of a number format. -/
structure Layout where
  /-- Is a number whose leading digit stands for `10^e` written positionally? -/
  positional : Int → Bool
  /-- Do whole numbers keep a fraction digit, as in `1.0`? -/
  pointZero : Bool
  /-- Which of two equally near shortest decimals is written. -/
  tie : Tie
  /-- The text of NaN. -/
  nan : String
  /-- The text of positive infinity. -/
  infinity : String

namespace Layout

/-- The digits with the decimal point at its place. -/
def positionalText (l : Layout) (d : Digits) : String :=
  let text := toString d.digits
  if 0 ≤ d.exp then
    text ++ String.ofList (List.replicate d.exp.toNat '0') ++ (if l.pointZero then ".0" else "")
  else
    let places := (-d.exp).toNat
    let cs := text.toList
    if places < cs.length then
      let whole := cs.length - places
      String.ofList (cs.take whole ++ '.' :: cs.drop whole)
    else
      "0." ++ String.ofList (List.replicate (places - cs.length) '0') ++ text

/-- One digit, the rest behind the point, and the signed exponent of the first digit. -/
def scientificText (d : Digits) (e : Int) : String :=
  let mantissa := match (toString d.digits).toList with
    | [] => ""
    | [c] => String.singleton c
    | c :: cs => String.ofList (c :: '.' :: cs)
  mantissa ++ "e" ++ (if 0 ≤ e then "+" else "-") ++ toString e.natAbs

/-- The text of a positive magnitude. -/
def magnitude (l : Layout) (b : Binary) : String :=
  if b.m == 0 then
    if l.pointZero then "0.0" else "0"
  else
    let d := b.shortest l.tie
    let e := d.exp + (toString d.digits).length - 1
    if l.positional e then l.positionalText d else scientificText d e

/-- The text of a double. -/
def render (l : Layout) (x : Float) : String :=
  if x.isNaN then l.nan
  else
    let sign := if isNegative x then "-" else ""
    if isFinite x then sign ++ l.magnitude (Binary.ofFloat x) else sign ++ l.infinity

end Layout

/-- Positional without exponent whatever the size, and no point in whole numbers. -/
def plain : Layout where
  positional := fun _ => true
  pointZero := false
  tie := .up
  nan := "NaN"
  infinity := "inf"

end LayeredAccess.Decimal
