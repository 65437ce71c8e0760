/-
  LayeredAccess.Json.Token

  The lexical layer of JSON texts. A text is cut into tokens before any
  nesting is looked at; a literal that is well formed but has no value (a
  number out of range, an unpaired surrogate) is a token without value, so
  that a reader can step over it.
-/
import LayeredAccess.Json.Basic

namespace LayeredAccess.Json

/-- A lexical unit of a JSON text. -/
inductive Token where
  | openArray
  | closeArray
  | openObject
  | closeObject
  | comma
  | colon
  | null
  | bool (value : Bool)
  /-- A number; without value if its magnitude is beyond every double. -/
  | number (value : Option Json)
  /-- A string; without value if it names half a surrogate pair. -/
  | string (value : Option String)
  deriving Inhabited

/-! ## Numbers -/

/-- A number as it is written. -/
structure NumberLiteral where
  negative : Bool
  /-- The digits before the point. -/
  whole : List Nat
  /-- The digits behind the point, if there is one. -/
  fraction : Option (List Nat)
  /-- The exponent, if there is one. -/
  exponent : Option (Bool × List Nat)

/-- The number that a list of decimal digits stands for. -/
def digitsValue (ds : List Nat) : Nat := ds.foldl (fun n d => n * 10 + d) 0

/-- Significant digits that fit 64 bits, and how many of the digits had to be left out. -/
def significand (ds : List Nat) : Nat × Nat :=
  ds.foldl (fun (n, left) d =>
    if left = 0 && n * 10 + d < wordLimit then (n * 10 + d, 0) else (n, left + 1)) (0, 0)

/-- Appends digits to a significand while it fits 64 bits; returns it and the number of digits
taken. -/
def extendSignificand (n : Nat) : List Nat → Nat × Nat
  | [] => (n, 0)
  | d :: ds =>
    if n * 10 + d < wordLimit then
      let (m, taken) := extendSignificand (n * 10 + d) ds
      (m, taken + 1)
    else (n, 0)

/-- A power of ten as a double. -/
def powerOfTen (k : Nat) : Float := Float.ofScientific 1 false k

/-- `n · 10^e` by one multiplication or one division of doubles; two divisions where the power
alone is beyond the doubles. Nothing if the result would be infinite. -/
def scaleByTen (n : Nat) (e : Int) : Option Float :=
  let f := Float.ofNat n
  if 0 ≤ e then
    if n = 0 then some f
    else if e ≤ 308 then
      let x := f * powerOfTen e.toNat
      if x.isInf then none else some x
    else none
  else if -e ≤ 308 then some (f / powerOfTen (-e).toNat)
  else if -e ≤ 616 then some (f / powerOfTen 308 / powerOfTen (-e - 308).toNat)
  else some 0.0

/-- The value of a number. Integers of 64 bits, signed or unsigned, are exact. Every other
number is a double: its first digits up to 64 bits, scaled by a power of ten. -/
def NumberLiteral.value (l : NumberLiteral) : Option Json :=
  let signed (x : Float) : Json := .double (if l.negative then -x else x)
  match l.fraction, l.exponent with
  | none, none =>
    let n := digitsValue l.whole
    if l.negative then
      if n = 0 then some (signed 0.0)
      else if n ≤ signLimit then some (.int (-n))
      else
        let (m, left) := significand l.whole
        (scaleByTen m left).map signed
    else if n < wordLimit then some (.int n)
    else
      let (m, left) := significand l.whole
      (scaleByTen m left).map signed
  | fraction, exponent =>
    let (m, left) := significand l.whole
    let (m, taken) := extendSignificand m (fraction.getD [])
    let place : Int := (left : Int) - taken
    match exponent with
    | none => (scaleByTen m place).map signed
    | some (negative, ds) =>
      let e := digitsValue ds
      if e < 2147483648 then (scaleByTen m (if negative then place - e else place + e)).map signed
      else if m ≠ 0 && !negative then none
      else some (signed 0.0)

/-- Splits off the longest run of decimal digits. -/
def splitDigits (cs : List Char) : List Nat × List Char :=
  ((cs.takeWhile Char.isDigit).map fun c => c.toNat - '0'.toNat, cs.dropWhile Char.isDigit)

/-- Reads the exponent of a number, if one follows. -/
def readExponent (l : NumberLiteral) : List Char → Option (NumberLiteral × List Char)
  | c :: rest =>
    if c = 'e' || c = 'E' then
      let (negative, rest) := match rest with
        | '+' :: rest => (false, rest)
        | '-' :: rest => (true, rest)
        | rest => (false, rest)
      match splitDigits rest with
      | ([], _) => none
      | (ds, rest) => some ({ l with exponent := some (negative, ds) }, rest)
    else some (l, c :: rest)
  | [] => some (l, [])

/-- Reads a number without its sign: no leading zeros, and digits on both sides of a point. -/
def readNumber (negative : Bool) (cs : List Char) : Option (NumberLiteral × List Char) :=
  match splitDigits cs with
  | ([], _) => none
  | (0 :: _ :: _, _) => none
  | (whole, '.' :: rest) =>
    match splitDigits rest with
    | ([], _) => none
    | (fraction, rest) => readExponent ⟨negative, whole, some fraction, none⟩ rest
  | (whole, rest) => readExponent ⟨negative, whole, none, none⟩ rest

/-! ## Strings -/

/-- The value of a hexadecimal digit of either case. -/
def hexDigit? (c : Char) : Option Nat :=
  if '0' ≤ c && c ≤ '9' then some (c.toNat - 48)
  else if 'a' ≤ c && c ≤ 'f' then some (c.toNat - 87)
  else if 'A' ≤ c && c ≤ 'F' then some (c.toNat - 55)
  else none

/-- The number that four hexadecimal digits stand for. -/
def hexQuad? (a b c d : Char) : Option Nat := do
  let a ← hexDigit? a
  let b ← hexDigit? b
  let c ← hexDigit? c
  let d ← hexDigit? d
  return ((a * 16 + b) * 16 + c) * 16 + d

/-- The character that a letter behind a backslash stands for. -/
def unescape? : Char → Option Char
  | '"' => some '"'
  | '\\' => some '\\'
  | '/' => some '/'
  | 'b' => some (Char.ofNat 8)
  | 'f' => some (Char.ofNat 12)
  | 'n' => some '\n'
  | 'r' => some '\r'
  | 't' => some '\t'
  | _ => none

/-- A piece of a string literal: a character, or one 16-bit unit named by its number. -/
inductive StringPiece where
  | char (c : Char)
  | unit (n : Nat)

/-- Reads the pieces of a string up to its closing quote. -/
def readPieces : List Char → Option (List StringPiece × List Char)
  | [] => none
  | '"' :: rest => some ([], rest)
  | '\\' :: 'u' :: a :: b :: c :: d :: rest => do
    let n ← hexQuad? a b c d
    let (pieces, rest) ← readPieces rest
    return (.unit n :: pieces, rest)
  | '\\' :: c :: rest => do
    let c ← unescape? c
    let (pieces, rest) ← readPieces rest
    return (.char c :: pieces, rest)
  | c :: rest =>
    if c.toNat < 32 then none
    else do
      let (pieces, rest) ← readPieces rest
      return (.char c :: pieces, rest)

/-- The text of the pieces: two units that form a surrogate pair are one character, and half a
pair has no text. -/
def joinPieces : List StringPiece → Option (List Char)
  | [] => some []
  | .char c :: rest => (joinPieces rest).map (c :: ·)
  | .unit high :: .unit low :: rest =>
    if 0xD800 ≤ high && high < 0xDC00 then
      if 0xDC00 ≤ low && low < 0xE000 then
        (joinPieces rest).map (Char.ofNat (0x10000 + (high - 0xD800) * 0x400 + (low - 0xDC00)) :: ·)
      else none
    else if 0xDC00 ≤ high && high < 0xE000 then none
    else (joinPieces (.unit low :: rest)).map (Char.ofNat high :: ·)
  | .unit n :: rest =>
    if 0xD800 ≤ n && n < 0xE000 then none else (joinPieces rest).map (Char.ofNat n :: ·)

/-! ## Tokens -/

/-- The blanks that may stand between tokens. -/
def isBlank (c : Char) : Bool := c = ' ' || c = '\n' || c = '\t' || c = '\r'

/-- Strips a word from the front of a text. -/
def dropWord (word : List Char) (cs : List Char) : Option (List Char) :=
  if word.isPrefixOf cs then some (cs.drop word.length) else none

/-- Reads the token at the front of a text that starts with no blank. -/
def nextToken (c : Char) (rest : List Char) : Option (Token × List Char) :=
  match c with
  | '[' => some (.openArray, rest)
  | ']' => some (.closeArray, rest)
  | '\x7b' => some (.openObject, rest)
  | '\x7d' => some (.closeObject, rest)
  | ',' => some (.comma, rest)
  | ':' => some (.colon, rest)
  | 'n' => (dropWord "ull".toList rest).map (.null, ·)
  | 't' => (dropWord "rue".toList rest).map (.bool true, ·)
  | 'f' => (dropWord "alse".toList rest).map (.bool false, ·)
  | '"' => (readPieces rest).map fun (pieces, rest) =>
      (.string ((joinPieces pieces).map String.ofList), rest)
  | '-' => (readNumber true rest).map fun (l, rest) => (.number l.value, rest)
  | c => (readNumber false (c :: rest)).map fun (l, rest) => (.number l.value, rest)

/-- The tokens of a text, or nothing if some part of it is no token. -/
def tokens (cs : List Char) : Option (List Token) :=
  match cs with
  | [] => some []
  | c :: rest =>
    if isBlank c then tokens rest
    else
      match nextToken c rest with
      | none => none
      | some (t, rest') =>
        if rest'.length < (c :: rest).length then (tokens rest').map (t :: ·) else none
termination_by cs.length
decreasing_by all_goals simp_all

end LayeredAccess.Json
