/-
  LayeredAccess.Uuid

  Universally unique identifiers: 32 hexadecimal digits, written in lower case
  in groups of 8, 4, 4, 4 and 12. They are read in either case, with or without
  the hyphens, in braces or after `urn:uuid:` in either case.
-/
import LayeredAccess.Decode

namespace LayeredAccess

/-- An identifier by its 32 hexadecimal digits in lower case. -/
structure Uuid where
  digits : List Char
  deriving DecidableEq, Inhabited, Repr

namespace Uuid

/-- Puts hyphens between the groups of digits. -/
def hyphenate (ds : List Char) : List Char :=
  ds.take 8 ++ '-' :: (ds.drop 8).take 4 ++ '-' :: (ds.drop 12).take 4
    ++ '-' :: (ds.drop 16).take 4 ++ '-' :: ds.drop 20

/-- The written form. -/
def toString (u : Uuid) : String := String.ofList (hyphenate u.digits)

instance : ToString Uuid := ⟨toString⟩

/-- A hexadecimal digit in lower case. -/
def hexDigit? (c : Char) : Option Char :=
  if c.isDigit then some c
  else if 'a' ≤ c && c ≤ 'f' then some c
  else if 'A' ≤ c && c ≤ 'F' then some c.toLower
  else none

/-- Reads 32 digits without hyphens. -/
def ofDigits? (cs : List Char) : Option Uuid :=
  if cs.length = 32 then (cs.mapM hexDigit?).map Uuid.mk else none

/-- Reads digits with a hyphen after each group. -/
def ofHyphenated? (cs : List Char) : Option Uuid :=
  let isHyphen (i : Nat) : Bool := cs[i]? == some '-'
  if cs.length = 36 && isHyphen 8 && isHyphen 13 && isHyphen 18 && isHyphen 23 then
    ofDigits? (cs.take 8 ++ (cs.drop 9).take 4 ++ (cs.drop 14).take 4 ++ (cs.drop 19).take 4
      ++ cs.drop 24)
  else none

/-- Reads an identifier in any of its forms. -/
def ofString? (s : String) : Option Uuid :=
  let cs := s.toList
  if s.utf8ByteSize = 32 then ofDigits? cs
  else if s.utf8ByteSize = 38 && cs.head? == some '\x7b' && cs.getLast? == some '\x7d' then
    ofHyphenated? (cs.drop 1).dropLast
  else if s.utf8ByteSize = 45 && (cs.take 9).map Char.toLower == "urn:uuid:".toList then
    ofHyphenated? (cs.drop 9)
  else ofHyphenated? cs

/-- Reads an identifier from JSON. -/
def decode : Decoder Uuid
  | .str s =>
    match ofString? s with
    | some u => .ok u
    | none => .error (.invalid ("UUID parsing failed: " ++ s))
  | v => .error (.wrongType v "a formatted UUID string")

def encode (u : Uuid) : Json := .str u.toString

/-- The kind of identifier, which the thirteenth digit names. -/
def version (u : Uuid) : Nat :=
  match u.digits[12]? with
  | some c => c.toNat - '0'.toNat
  | none => 0

/-- The identifier of a name by the digest of the name: version 5 in the thirteenth digit, and
`8`, `9`, `a` or `b` in the seventeenth. -/
def ofDigest (digest : List (Fin 16)) : Uuid :=
  let ds := (List.range 32).map fun i => (digest[i]?).getD 0
  let mark (i : Nat) (d : Fin 16) : Nat :=
    if i = 12 then 5 else if i = 16 then 8 + d.val % 4 else d.val
  ⟨ds.zipIdx.map fun (d, i) => Nat.digitChar (mark i d)⟩

end Uuid

end LayeredAccess
