/-
  LayeredAccess.JsonSchema.Uri

  Addresses and references to them: their parts, the address that a reference
  means beside another address, and the one spelling of an address among those
  that mean the same. Percent signs stand in front of two hexadecimal digits.
-/

namespace LayeredAccess

/-- An address, or a reference to one, without the signs between its parts. -/
structure Uri where
  scheme : Option (List Char) := none
  authority : Option (List Char) := none
  path : List Char := []
  query : Option (List Char) := none
  fragment : Option (List Char) := none
  deriving DecidableEq, Inhabited, Repr

namespace Uri

/-! ## Characters -/

/-- Characters without a meaning of their own. -/
def isUnreserved (c : Char) : Bool := c.isAlphanum || ['-', '.', '_', '~'].contains c

/-- Characters that may divide a part. -/
def isDivider (c : Char) : Bool :=
  ['!', '$', '&', '\x27', '(', ')', '*', '+', ',', ';', '='].contains c

/-- Is a character a hexadecimal digit? -/
def isHexDigit (c : Char) : Bool := c.isDigit || ('a' ≤ c && c ≤ 'f') || ('A' ≤ c && c ≤ 'F')

/-- The value of a hexadecimal digit. -/
def hexValue (c : Char) : Nat :=
  if c.isDigit then c.toNat - '0'.toNat
  else if c.isLower then c.toNat - 'a'.toNat + 10
  else c.toNat - 'A'.toNat + 10

/-- Are the characters of a part unreserved, dividers, encoded or among the given others? -/
def isPart (others : List Char) : List Char → Bool
  | '%' :: a :: b :: rest => isHexDigit a && isHexDigit b && isPart others rest
  | c :: rest => (isUnreserved c || isDivider c || others.contains c) && isPart others rest
  | [] => true

/-- A scheme is a letter and then letters, digits, `+`, `-` and `.`. -/
def isScheme : List Char → Bool
  | [] => false
  | c :: rest => c.isAlpha && rest.all fun c => c.isAlphanum || ['+', '-', '.'].contains c

/-! ## Reading and writing -/

/-- What stands in front of a sign and, if there is one, behind the first. -/
def cutAt (sign : Char) (cs : List Char) : List Char × Option (List Char) :=
  (cs.takeWhile (· ≠ sign),
   match cs.dropWhile (· ≠ sign) with
   | [] => none
   | _ :: rest => some rest)

/-- The parts behind the scheme, without query and fragment. -/
def ofHierarchy : List Char → Uri
  | '/' :: '/' :: rest =>
    { authority := some (rest.takeWhile (· ≠ '/')), path := rest.dropWhile (· ≠ '/') }
  | path => { path }

/-- Have all parts the characters that they may have? -/
def isWellFormed (u : Uri) : Bool :=
  u.scheme.all isScheme && u.authority.all (isPart [':', '@', '[', ']'])
    && isPart [':', '@', '/'] u.path && u.query.all (isPart [':', '@', '/', '?'])
    && u.fragment.all (isPart [':', '@', '/', '?'])

/-- Reads an address or a reference. -/
def read (text : String) : Option Uri :=
  let (cs, fragment) := cutAt '#' text.toList
  let (cs, query) := cutAt '?' cs
  let whole : Uri :=
    match cutAt ':' cs with
    | (scheme, some rest) =>
      if scheme.contains '/' then ofHierarchy cs
      else { ofHierarchy rest with scheme := some scheme }
    | (_, none) => ofHierarchy cs
  let u := { whole with query, fragment }
  if isWellFormed u then some u else none

/-- The text of an address. -/
def text (u : Uri) : String :=
  let before (sign : String) (part : Option (List Char)) : String :=
    (part.map fun cs => sign ++ String.ofList cs).getD ""
  (u.scheme.map fun cs => String.ofList cs ++ ":").getD "" ++ before "//" u.authority
    ++ String.ofList u.path ++ before "?" u.query ++ before "#" u.fragment

/-! ## One spelling -/

/-- A part where only characters that need it are encoded, with capital digits. -/
def settlePart : List Char → List Char
  | '%' :: a :: b :: rest =>
    let c := Char.ofNat (16 * hexValue a + hexValue b)
    if isUnreserved c then c :: settlePart rest
    else '%' :: a.toUpper :: b.toUpper :: settlePart rest
  | c :: rest => c :: settlePart rest
  | [] => []

/-- The stretches of a text between the places of a sign. -/
def splitOn (sign : Char) : List Char → List (List Char)
  | [] => [[]]
  | c :: rest =>
    match splitOn sign rest with
    | [] => [[c]]
    | s :: more => if c = sign then [] :: s :: more else (c :: s) :: more

/-- Follows the segments `.` and `..` behind others that are kept in reverse. The empty segment in
front of a path stays. -/
def settleSegments (kept : List (List Char)) : List (List Char) → List (List Char)
  | [] => kept.reverse
  | s :: rest =>
    let outer := if kept.length ≤ 1 then kept else kept.tail
    let close (kept : List (List Char)) := if rest.isEmpty then [] :: kept else kept
    if s = ['.'] then settleSegments (close kept) rest
    else if s = ['.', '.'] then settleSegments (close outer) rest
    else settleSegments (s :: kept) rest

/-- A path from the top where no segment goes up or stays. -/
def settlePath (path : List Char) : List Char :=
  match path with
  | '/' :: _ => List.intercalate ['/'] (settleSegments [] (splitOn '/' path))
  | _ => path

/-- The one spelling of an address. -/
def settle (u : Uri) : Uri where
  scheme := u.scheme.map fun cs => cs.map Char.toLower
  authority := u.authority.map fun cs => settlePart (cs.map Char.toLower)
  path := settlePath (settlePart u.path)
  query := u.query.map settlePart
  fragment := u.fragment.map settlePart

/-! ## References -/

/-- A path beside that of an address. -/
def besidePath (base : Uri) (path : List Char) : List Char :=
  if base.authority.isSome && base.path.isEmpty then '/' :: path
  else (base.path.reverse.dropWhile (· ≠ '/')).reverse ++ path

/-- The address that a reference means beside another. A path that does not start from the top
needs an address with one that does. -/
def resolve (base r : Uri) : Option Uri :=
  if r.scheme.isSome then some r.settle
  else if r.authority.isSome then some { r with scheme := base.scheme }.settle
  else
    let whole := { r with scheme := base.scheme, authority := base.authority }
    match r.path with
    | [] => some { whole with path := base.path, query := r.query <|> base.query }.settle
    | '/' :: _ => some whole.settle
    | path =>
      if base.authority.isNone && base.path.head? ≠ some '/' then none
      else some { whole with path := besidePath base path }.settle

/-! ## Encoded text -/

/-- The bytes of a text with encoded ones in place. -/
def decodedBytes : List Char → List UInt8
  | '%' :: a :: b :: rest =>
    if isHexDigit a && isHexDigit b then
      UInt8.ofNat (16 * hexValue a + hexValue b) :: decodedBytes rest
    else (String.singleton '%').toUTF8.toList ++ decodedBytes (a :: b :: rest)
  | c :: rest => (String.singleton c).toUTF8.toList ++ decodedBytes rest
  | [] => []

/-- A text with encoded characters in place. -/
def decoded? (cs : List Char) : Option String :=
  String.fromUTF8? (ByteArray.mk (decodedBytes cs).toArray)

end Uri

/-- What a reference leads to: an address, and what the reference has behind `#`. -/
structure Target where
  address : String
  fragment : String
  deriving DecidableEq, Inhabited, Repr

end LayeredAccess
