/-
  LayeredAccess.JsonSchema.TextFormat

  The formats of texts that schemas name: dates and times, addresses of machines,
  mail and documents, ways into a value, and encoded content. Only the drafts
  without a year in their names ask for them.
-/
import LayeredAccess.Json.Parser
import LayeredAccess.JsonSchema.Draft

namespace LayeredAccess.TextFormat

open Uri (splitOn isHexDigit)

/-! ## Dates and times -/

/-- The number that so many digits write. -/
def digits? (count : Nat) (cs : List Char) : Option Nat :=
  if cs.length = count && cs.all Char.isDigit then (String.ofList cs).toNat? else none

/-- The number of days of a month. -/
def daysOf (year month : Nat) : Nat :=
  if month = 2 then
    if year % 4 = 0 && (year % 100 ≠ 0 || year % 400 = 0) then 29 else 28
  else if [4, 6, 9, 11].contains month then 30
  else 31

/-- Is a text a date, such as `2024-02-29`? -/
def isDate (cs : List Char) : Bool :=
  match splitOn '-' cs with
  | [y, m, d] =>
    match digits? 4 y, digits? 2 m, digits? 2 d with
    | some y, some m, some d => 1 ≤ m && m ≤ 12 && 1 ≤ d && d ≤ daysOf y m
    | _, _, _ => false
  | _ => false

/-- The minutes that a clock is ahead by the text behind its time. -/
def offset? : List Char → Option Int
  | ['Z'] | ['z'] => some 0
  | sign :: rest =>
    match splitOn ':' rest with
    | [h, m] => do
      let h ← digits? 2 h
      let m ← digits? 2 m
      if 23 < h || 59 < m then none
      else if sign = '+' then return (60 * h + m : Nat)
      else if sign = '-' then return -((60 * h + m : Nat) : Int)
      else none
    | _ => none
  | [] => none

/-- What is behind a fraction of a second, if there is one. -/
def dropFraction : List Char → Option (List Char)
  | '.' :: rest =>
    if rest.head?.any Char.isDigit then some (rest.dropWhile Char.isDigit) else none
  | rest => some rest

/-- Is a text a time with its offset? Only the last minute of a day has a sixty-first second. -/
def isTime (cs : List Char) : Bool :=
  match splitOn ':' (cs.take 8), (dropFraction (cs.drop 8)).bind offset? with
  | [h, m, s], some offset =>
    match digits? 2 h, digits? 2 m, digits? 2 s with
    | some h, some m, some s =>
      h ≤ 23 && m ≤ 59 && (s ≤ 59 || (s = 60 && ((60 * h + m : Nat) - offset) % 1440 = 1439))
    | _, _, _ => false
  | _, _ => false

/-- Is a text a date and a time? -/
def isDateTime (cs : List Char) : Bool :=
  let isMark (c : Char) : Bool := c = 'T' || c = 't'
  isDate (cs.takeWhile (!isMark ·)) && isTime ((cs.dropWhile (!isMark ·)).drop 1)

/-! ## Addresses -/

/-- Is a text a number below 256 as an address has it? -/
def isOctet (cs : List Char) : Bool :=
  (cs.length = 1 || cs.head? ≠ some '0') && (digits? cs.length cs).any (· < 256)

/-- Is a text an address of four numbers? -/
def isShortAddress (cs : List Char) : Bool :=
  let parts := splitOn '.' cs
  parts.length = 4 && parts.all isOctet

/-- Is a text one to four hexadecimal digits? -/
def isGroup (cs : List Char) : Bool := 1 ≤ cs.length && cs.length ≤ 4 && cs.all isHexDigit

/-- The number of groups of an address without a gap. An address of four numbers may stand for the
last two. -/
def groups? (mayEndShort : Bool) (cs : List Char) : Option Nat :=
  if cs.isEmpty then some 0
  else
    let parts := splitOn ':' cs
    if parts.all isGroup then some parts.length
    else
      let isShort := mayEndShort && (parts.getLast?).any isShortAddress
      if isShort && parts.dropLast.all isGroup then some (parts.length + 1) else none

/-- What stands in front of the first two colons in a row, and behind them. -/
def cutAtGap : List Char → Option (List Char × List Char)
  | ':' :: ':' :: rest => some ([], rest)
  | c :: rest => (cutAtGap rest).map fun (front, back) => (c :: front, back)
  | [] => none

/-- Is a text an address of eight groups, of which a gap leaves out some that are zero? -/
def isLongAddress (cs : List Char) : Bool :=
  match cutAtGap cs with
  | none => groups? true cs = some 8
  | some (front, back) =>
    match groups? false front, groups? true back with
    | some n, some m => n + m ≤ 7
    | _, _ => false

/-- Is a text one label of a host's name? -/
def isLabel (cs : List Char) : Bool :=
  1 ≤ cs.length && cs.length ≤ 63 && cs.head? ≠ some '-' && cs.getLast? ≠ some '-'
    && cs.all fun c => c.isAlphanum || c = '-'

/-- Is a text a host's name? -/
def isHostName (cs : List Char) : Bool := cs.length ≤ 253 && (splitOn '.' cs).all isLabel

/-- May a character stand in a word of a mail address? -/
def isWordSign (c : Char) : Bool :=
  c.isAlphanum || 0x7F < c.toNat
    || "!#$%&*+-/=?^_|~\x27\x60\x7b\x7d".toList.contains c

/-- Is a text words with points between them, or anything in quotes? -/
def isMailbox (cs : List Char) : Bool :=
  cs.length ≤ 64 &&
    match cs with
    | '"' :: rest => rest.getLast? = some '"'
    | cs => (splitOn '.' cs).all fun word => !word.isEmpty && word.all isWordSign

/-- Is a text the place that a mail address names? -/
def isMailHost : List Char → Bool
  | '[' :: rest =>
    let inner := rest.dropLast
    rest.getLast? = some ']' &&
      if inner.take 5 = "IPv6:".toList then isLongAddress (inner.drop 5) else isShortAddress inner
  | cs => isHostName cs

/-- Is a text a mail address? -/
def isMailAddress (cs : List Char) : Bool :=
  match (splitOn '@' cs).reverse with
  | [] | [_] => false
  | host :: words => isMailHost host && isMailbox (List.intercalate ['@'] words.reverse)

/-- Is a text the address of a document? -/
def isUri (cs : List Char) : Bool := (Uri.read (String.ofList cs)).any (·.scheme.isSome)

/-- Is a text such an address or a reference? -/
def isUriReference (cs : List Char) : Bool := (Uri.read (String.ofList cs)).isSome

/-! ## Ways into a value -/

/-- Is each `~` of a text in front of `0` or `1`? -/
def hasEscapes : List Char → Bool
  | '~' :: '0' :: rest | '~' :: '1' :: rest => hasEscapes rest
  | '~' :: _ => false
  | _ :: rest => hasEscapes rest
  | [] => true

/-- Is a text a way from the top of a value? -/
def isWay (cs : List Char) : Bool := (cs.isEmpty || cs.head? = some '/') && hasEscapes cs

/-- Is a text a way from inside a value, so many steps up at first? -/
def isRelativeWay (cs : List Char) : Bool :=
  let steps := cs.takeWhile Char.isDigit
  let rest := cs.dropWhile Char.isDigit
  !steps.isEmpty && (steps.length = 1 || steps.head? ≠ some '0') && (rest = ['#'] || isWay rest)

/-- Is a text a pattern? -/
def isPattern (cs : List Char) : Bool := Shape.isPattern (String.ofList cs)

/-! ## Encoded content -/

/-- The six bits of a character. -/
def sextet? (c : Char) : Option Nat :=
  if c.isUpper then some (c.toNat - 'A'.toNat)
  else if c.isLower then some (c.toNat - 'a'.toNat + 26)
  else if c.isDigit then some (c.toNat - '0'.toNat + 52)
  else if c = '+' then some 62
  else if c = '/' then some 63
  else none

/-- The bytes of four characters each, where the last may miss one or two. -/
def fromBase64? : List Char → Option (List Nat)
  | [] => some []
  | [a, b, '=', '='] => do
    let n := 64 * (← sextet? a) + (← sextet? b)
    if n % 16 = 0 then return [n / 16] else none
  | [a, b, c, '='] => do
    let n := 64 * (64 * (← sextet? a) + (← sextet? b)) + (← sextet? c)
    if n % 4 = 0 then return [n / 1024, n / 4 % 256] else none
  | a :: b :: c :: d :: rest => do
    let n := 64 * (64 * (64 * (← sextet? a) + (← sextet? b)) + (← sextet? c)) + (← sextet? d)
    return n / 65536 :: n / 256 % 256 :: n % 256 :: (← fromBase64? rest)
  | _ => none

/-- Is a text encoded by the encoding of a name? -/
def isEncoded (encoding : String) (s : String) : Bool :=
  encoding != "base64" || (fromBase64? s.toList).isSome

/-- Is a text, behind an encoding that it may have, of the kind of a name? -/
def isContent (kind : String) (encoding : Option String) (s : String) : Bool :=
  if kind != "application/json" then true
  else if encoding == some "base64" then
    (fromBase64? s.toList).any fun bytes =>
      (String.fromUTF8? (ByteArray.mk (bytes.map UInt8.ofNat).toArray)).any fun inner =>
        (Json.parse inner).isSome
  else (Json.parse s).isSome

/-! ## Names -/

/-- The formats that all drafts without a year know. -/
def common : List (String × (List Char → Bool)) :=
  [("date", isDate), ("time", isTime), ("date-time", isDateTime), ("email", isMailAddress),
   ("idn-email", isMailAddress), ("hostname", isHostName), ("ipv4", isShortAddress),
   ("ipv6", isLongAddress), ("regex", isPattern), ("uri", isUri)]

/-- The formats that the sixth draft adds. -/
def sinceSix : List (String × (List Char → Bool)) :=
  [("json-pointer", isWay), ("uri-reference", isUriReference)]

/-- The formats that a draft asks for. -/
def table : Draft → List (String × (List Char → Bool))
  | .four => common
  | .six => sinceSix ++ common
  | .seven => ("relative-json-pointer", isRelativeWay) :: sinceSix ++ common
  | .year2019 | .year2020 => []

/-- The format of a name. A draft asks nothing of others. -/
def named (d : Draft) (name : String) (s : String) : Bool :=
  ((table d).find? (·.1 == name)).all fun e => e.2 s.toList

end LayeredAccess.TextFormat
