/-
  LayeredAccess.Json.Printer

  The compact text of JSON values: no blanks, object members in key order,
  doubles with the fewest digits that read back.
-/
import LayeredAccess.Decimal.Notation
import LayeredAccess.Json.Basic

namespace LayeredAccess.Json

/-- Doubles are positional while the first digit stands for `10^-5` to `10^15`, and always have
a fraction or an exponent, so that they never read back as integers. -/
def numberLayout : Decimal.Layout where
  positional := fun e => -5 ≤ e && e ≤ 15
  pointZero := true
  tie := .toEven
  nan := "null"
  infinity := "null"

/-- The text of a double. -/
def doubleText (x : Float) : String := numberLayout.render x

private def hexDigits : List Char := "0123456789abcdef".toList

/-- A character inside a string literal: quotes, backslashes and control characters are
escaped, everything else stands for itself. -/
def escapeChar (c : Char) : List Char :=
  match c with
  | '"' => ['\\', '"']
  | '\\' => ['\\', '\\']
  | '\n' => ['\\', 'n']
  | '\r' => ['\\', 'r']
  | '\t' => ['\\', 't']
  | c =>
    if c.toNat = 8 then ['\\', 'b']
    else if c.toNat = 12 then ['\\', 'f']
    else if c.toNat < 32 then
      ['\\', 'u', '0', '0', hexDigits.getD (c.toNat / 16) '0', hexDigits.getD (c.toNat % 16) '0']
    else [c]

/-- A text as a string literal. -/
def quote (s : String) : String :=
  String.ofList ('"' :: s.toList.flatMap escapeChar ++ ['"'])

mutual

/-- The compact text of a value. -/
def render : Json → String
  | .null => "null"
  | .bool true => "true"
  | .bool false => "false"
  | .int n => toString n
  | .double x => doubleText x
  | .str s => quote s
  | .arr items => "[" ++ String.intercalate "," (renderItems items) ++ "]"
  | .obj members => "\x7b" ++ String.intercalate "," (renderMembers members) ++ "\x7d"

/-- The texts of the items of an array. -/
def renderItems : List Json → List String
  | [] => []
  | v :: rest => render v :: renderItems rest

/-- The texts of the members of an object. -/
def renderMembers : List (String × Json) → List String
  | [] => []
  | (k, v) :: rest => (quote k ++ ":" ++ render v) :: renderMembers rest

end

instance : ToString Json := ⟨render⟩

end LayeredAccess.Json
