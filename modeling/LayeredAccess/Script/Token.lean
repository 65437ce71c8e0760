/-
  LayeredAccess.Script.Token

  The lexical layer of scripts. The longest text that forms a token is taken;
  blanks and comments, which start with two slashes and end with the line,
  stand between tokens. A literal without a value is a token all the same: it
  counts only where a literal may stand.
-/
import LayeredAccess.Decimal.Reading
import LayeredAccess.Script.Value
import LayeredAccess.Text.Blank

namespace LayeredAccess.Script

/-- A lexical unit of a script. -/
inductive Token where
  /-- A name. -/
  | name (s : String)
  /-- An operator, a bracket, a separator or a reserved word. -/
  | sign (s : String)
  /-- A literal; without value if its text stands for none. -/
  | literal (value : Option Value)
  /-- No token can be read here. -/
  | invalid
  deriving Inhabited

/-! ## Numbers -/

/-- A literal that names an integer without sign: its base has a mark, or the letter u follows
behind a blank. Such literals have no value. -/
def dropUnsignedMark : List Char → Option (List Char)
  | ' ' :: c :: rest => if c = 'u' || c = 'U' then some rest else none
  | _ => none

def isHexDigit (c : Char) : Bool :=
  c.isDigit || ('a' ≤ c && c ≤ 'f') || ('A' ≤ c && c ≤ 'F')

/-- Reads an integer literal behind its sign; `whole` are its digits. -/
def readInteger (negative : Bool) (whole rest : List Char) : Token × List Char :=
  let hex := match whole, rest with
    | ['0'], c :: cs =>
      if (c = 'x' || c = 'X') && (cs.head?.map isHexDigit).getD false then some cs else none
    | _, _ => none
  match hex with
  | some cs =>
    let after := cs.dropWhile isHexDigit
    (.literal none, (dropUnsignedMark after).getD after)
  | none =>
    match dropUnsignedMark rest with
    | some after => (.literal none, after)
    | none =>
      let n := Decimal.digitsValue whole
      let i : Int := if negative then -n else n
      (.literal (if isInt64 i then some (.int i) else none), rest)

/-- Reads a number. A plus sign and a missing digit ahead of the point are only for numbers with a
point or an exponent. -/
def readNumber (cs : List Char) : Option (Token × List Char) :=
  let (mark, body) := match cs with
    | '-' :: rest => (some '-', rest)
    | '+' :: rest => (some '+', rest)
    | cs => (none, cs)
  let whole := body.takeWhile Char.isDigit
  let rest := body.dropWhile Char.isDigit
  let float (digits : List Char) (e : Int) : Token :=
    let x := Decimal.nearest (Decimal.digitsValue digits) e
    .literal (some (.float (if mark = some '-' then -x else x)))
  let fraction := match rest with
    | '.' :: rest => rest.takeWhile Char.isDigit
    | _ => []
  if !fraction.isEmpty then
    let after := rest.drop (fraction.length + 1)
    match Decimal.readExponent after with
    | some (e, after) => some (float (whole ++ fraction) (e - fraction.length), after)
    | none => some (float (whole ++ fraction) (-fraction.length), after)
  else if whole.isEmpty then none
  else
    match Decimal.readExponent rest with
    | some (e, after) => some (float whole e, after)
    | none => if mark = some '+' then none else some (readInteger (mark = some '-') whole rest)

/-! ## Strings -/

/-- The text up to the quote that ends a string, and what follows it. A backslash protects the
character behind it, which is on the same line. -/
def spanQuoted (quote : Char) : List Char → Option (List Char × List Char)
  | '\\' :: c :: rest =>
    if c = '\n' then none
    else (spanQuoted quote rest).map fun (s, after) => ('\\' :: c :: s, after)
  | c :: rest =>
    if c = quote then some ([], rest)
    else if c = '\\' then none
    else (spanQuoted quote rest).map fun (s, after) => (c :: s, after)
  | [] => none

def hexValue? (c : Char) : Option Nat :=
  if c.isDigit then some (c.toNat - 48)
  else if 'a' ≤ c && c ≤ 'f' then some (c.toNat - 87)
  else if 'A' ≤ c && c ≤ 'F' then some (c.toNat - 55)
  else none

/-- The character that digits of a base name; a plus sign may stand ahead of them. -/
def charOfDigits? (base : Nat) (limit : Nat) (cs : List Char) : Option Char := do
  let ds := match cs with
    | '+' :: d :: ds => d :: ds
    | ds => ds
  let values ← ds.mapM hexValue?
  if values.any fun d => base ≤ d then none
  else
    let n := values.foldl (fun n d => n * base + d) 0
    if limit ≤ n || (0xD800 ≤ n && n < 0xE000) then none else some (Char.ofNat n)

/-- The length of the digits behind a letter, and their base, for escapes that name a character by
its number. -/
def numberedEscape? : Char → Option Nat
  | 'x' => some 2
  | 'u' => some 4
  | 'U' => some 8
  | _ => none

/-- The character that a single letter behind a backslash stands for. -/
def simpleEscape? : Char → Option Char
  | 'a' => some (Char.ofNat 7)
  | 'b' => some (Char.ofNat 8)
  | 'v' => some (Char.ofNat 11)
  | 'f' => some (Char.ofNat 12)
  | 'n' => some '\n'
  | 'r' => some '\r'
  | 't' => some '\t'
  | '\\' => some '\\'
  | '?' => some '?'
  | '\x60' => some '\x60'
  | _ => none

/-- The text between the quotes of a string. A quote of the other kind keeps the backslash ahead of
it. -/
def unescape (quote : Char) (cs : List Char) : Option (List Char) :=
  match cs with
  | [] => some []
  | '\\' :: c :: rest =>
    match simpleEscape? c with
    | some d => (unescape quote rest).map (d :: ·)
    | none =>
      if c = '\'' || c = '"' then
        (unescape quote rest).map fun r => if c = quote then c :: r else '\\' :: c :: r
      else
        match numberedEscape? c with
        | some n =>
          if rest.length < n then none
          else do
            let d ← charOfDigits? 16 0x110000 (rest.take n)
            let r ← unescape quote (rest.drop n)
            return d :: r
        | none =>
          if '0' ≤ c && c ≤ '3' then
            match rest with
            | a :: b :: rest => do
              let d ← charOfDigits? 8 256 [c, a, b]
              let r ← unescape quote rest
              return d :: r
            | _ => none
          else none
  | ['\\'] => none
  | c :: rest => if c = quote then none else (unescape quote rest).map (c :: ·)
termination_by cs.length
decreasing_by all_goals (simp only [List.length_cons, List.length_drop]; omega)

/-- The text between the quotes of a raw string: a backslash is lost ahead of a quote of the same
kind only. -/
def unescapeRaw (quote : Char) : List Char → List Char
  | '\\' :: c :: rest =>
    if c = quote then c :: unescapeRaw quote rest else '\\' :: c :: unescapeRaw quote rest
  | c :: rest => c :: unescapeRaw quote rest
  | [] => []

/-- Reads a string behind its opening quote. -/
def readString (raw : Bool) (quote : Char) (cs : List Char) : Option (Token × List Char) :=
  (spanQuoted quote cs).map fun (s, rest) =>
    let content := if raw then some (unescapeRaw quote s) else unescape quote s
    (.literal (content.map fun s => .str (String.ofList s)), rest)

/-- Reads a string with the mark of raw ones, if it has one, ahead of its quote. -/
def readAnyString : List Char → Option (Token × List Char)
  | m :: q :: rest =>
    if (m = 'r' || m = 'R') && (q = '\'' || q = '"') then readString true q rest
    else if m = '\'' || m = '"' then readString false m (q :: rest)
    else none
  | _ => none

/-! ## Names and signs -/

/-- The signs, longer ones ahead of their beginnings. -/
def signs : List String :=
  ["||", "&&", "<=", ">=", "==", "!=", "!!", "--", "?", ":", "<", ">", "+", "-", "*", "/", "%",
   "!", ".", "(", ")", "[", "]", "\x7b", "\x7d", ","]

def isNameStart (c : Char) : Bool := c.isAlpha || c = '_'

def isNamePart (c : Char) : Bool := c.isAlphanum || c = '_'

/-- A word: a literal, a reserved word or a name. -/
def wordToken (s : String) : Token :=
  match s with
  | "true" => .literal (some (.bool true))
  | "false" => .literal (some (.bool false))
  | "null" => .literal (some .null)
  | "in" => .sign "in"
  | s => .name s

/-- Reads a sign. -/
def readSign (cs : List Char) : Option (Token × List Char) :=
  (signs.find? fun s => s.toList.isPrefixOf cs).map fun s => (.sign s, cs.drop s.length)

/-- Reads the token at the front of a text that starts with no blank. -/
def nextToken (cs : List Char) : Option (Token × List Char) :=
  match cs with
  | [] => none
  | c :: rest =>
    match readAnyString (c :: rest) with
    | some found => some found
    | none =>
      if isNameStart c then
        some (wordToken (String.ofList (cs.takeWhile isNamePart)), cs.dropWhile isNamePart)
      else
        match readNumber cs with
        | some found => some found
        | none => readSign cs

/-- Drops a comment from the front of a text. -/
def dropComment? : List Char → Option (List Char)
  | '/' :: '/' :: rest => some (rest.dropWhile fun c => c ≠ '\n' && c ≠ '\r')
  | _ => none

/-- The tokens of a text; where none can be read they end with an invalid one. -/
def tokens (cs : List Char) : List Token :=
  match cs with
  | [] => []
  | c :: rest =>
    if Text.isBlank c then tokens rest
    else
      match dropComment? (c :: rest) with
      | some rest' => if rest'.length < (c :: rest).length then tokens rest' else [.invalid]
      | none =>
        match nextToken (c :: rest) with
        | some (t, rest') =>
          if rest'.length < (c :: rest).length then t :: tokens rest' else [.invalid]
        | none => [.invalid]
termination_by cs.length
decreasing_by all_goals simp_all

end LayeredAccess.Script
