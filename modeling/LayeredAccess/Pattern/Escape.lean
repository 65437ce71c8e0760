/-
  LayeredAccess.Pattern.Escape

  What stands behind a backslash in a pattern, and the blanks and comments that
  do not count where the flag `x` is set.
-/
import LayeredAccess.Pattern.Written
import LayeredAccess.Text.Blank

namespace LayeredAccess.Pattern

/-- Why a text cannot be read as a pattern. -/
inductive ReadError where
  | malformed
  /-- The text looks ahead or behind. -/
  | lookAround
  /-- The text refers to what a group has matched. -/
  | reference
  deriving DecidableEq, Inhabited, Repr

/-- A result of reading. -/
abbrev Read := Except ReadError

/-- What a notation of patterns has besides. -/
structure Dialect where
  /-- `\c` and a letter stand for a control character. -/
  control : Bool := false
  /-- Patterns can look around and refer to groups. -/
  looks : Bool := false
  deriving DecidableEq, Inhabited, Repr

def malformed {α : Type} : Read α := .error .malformed

/-- What is there, or else the text is malformed. -/
def ofOption {α : Type} : Option α → Read α
  | some a => .ok a
  | none => malformed

/-! ## Blanks and comments -/

/-- Drops blanks and comments from the front of a text; a comment reaches up to the end of its
line. -/
def skipFrom : Bool → List Char → List Char
  | _, [] => []
  | true, c :: rest => skipFrom (c ≠ '\n') rest
  | false, c :: rest =>
    if Text.isBlank c then skipFrom false rest
    else if c = '#' then skipFrom true rest
    else c :: rest

/-- Drops blanks and comments where they do not count. -/
def skip (verbose : Bool) (cs : List Char) : List Char :=
  if verbose then skipFrom false cs else cs

theorem length_skipFrom_le (inComment : Bool) (cs : List Char) :
    (skipFrom inComment cs).length ≤ cs.length := by
  induction cs generalizing inComment with
  | nil => simp [skipFrom]
  | cons c rest ih =>
    cases inComment with
    | true => exact Nat.le_succ_of_le (ih _)
    | false =>
      simp only [skipFrom]
      split
      · exact Nat.le_succ_of_le (ih _)
      · split
        · exact Nat.le_succ_of_le (ih _)
        · exact Nat.le_refl _

theorem length_skip_le (verbose : Bool) (cs : List Char) :
    (skip verbose cs).length ≤ cs.length := by
  simp only [skip]
  split
  · exact length_skipFrom_le _ _
  · exact Nat.le_refl _

/-- The characters up to one that does not belong, without blanks and comments between them, and
the rest of the text. -/
def takeVerbose (verbose : Bool) (belongs : Char → Bool) (cs : List Char) :
    List Char × List Char :=
  match cs with
  | [] => ([], [])
  | c :: rest =>
    if belongs c then
      let (taken, rest) := takeVerbose verbose belongs (skip verbose rest)
      (c :: taken, rest)
    else ([], c :: rest)
termination_by cs.length
decreasing_by
  have := length_skip_le verbose rest
  simp
  omega

/-! ## Characters by number -/

def hexValue? (c : Char) : Option Nat :=
  if c.isDigit then some (c.toNat - 48)
  else if 'a' ≤ c && c ≤ 'f' then some (c.toNat - 87)
  else if 'A' ≤ c && c ≤ 'F' then some (c.toNat - 55)
  else none

/-- The character that hexadecimal digits name. -/
def charOfHex? (ds : List Char) : Option Char := do
  let values ← ds.mapM hexValue?
  let n := values.foldl (fun n d => n * 16 + d) 0
  if ds.isEmpty || n ≥ 0x110000 || (0xD800 ≤ n && n < 0xE000) then none else some (Char.ofNat n)

/-- Reads a fixed number of digits. -/
def readDigits (verbose : Bool) : Nat → List Char → Read (List Char × List Char)
  | 0, cs => .ok ([], cs)
  | n + 1, c :: rest => do
    let (ds, rest) ← readDigits verbose n (skip verbose rest)
    return (c :: ds, rest)
  | _ + 1, [] => malformed

/-- Reads the digits behind `\x`, `\u` or `\U`: in braces, or a fixed number of them. -/
def readHex (verbose : Bool) (count : Nat) (cs : List Char) : Read (Letter × List Char) :=
  match skip verbose cs with
  | '\x7b' :: rest => do
    match takeVerbose verbose (· ≠ '\x7d') (skip verbose rest) with
    | (ds, _ :: rest) => return (⟨← ofOption (charOfHex? ds), .plain⟩, skip verbose rest)
    | (_, []) => malformed
  | cs => do
    let (ds, rest) ← readDigits verbose count cs
    return (⟨← ofOption (charOfHex? ds), if count = 2 then .byte else .plain⟩, rest)

/-! ## Properties -/

/-- The property that the text between braces names: a name, or a name and a value with `=`, `:` or
`!=` between them. -/
def propertyOfText (cs : List Char) : PropertyName :=
  let name (cs : List Char) : String := String.ofList cs
  let unequal := (List.range cs.length).find? fun i => cs[i]? == some '!' && cs[i + 1]? == some '='
  match unequal with
  | some i => .valued (name (cs.take i)) (name (cs.drop (i + 2)))
  | none =>
    let split (c : Char) : Option PropertyName :=
      if cs.contains c then
        some (.valued (name (cs.takeWhile (· ≠ c))) (name ((cs.dropWhile (· ≠ c)).drop 1)))
      else none
    ((split ':').orElse fun _ => split '=').getD (.named (name cs))

/-- Reads the name of a property behind `\p` or `\P`. -/
def readProperty (verbose : Bool) (cs : List Char) : Read (PropertyName × List Char) :=
  match skip verbose cs with
  | '\x7b' :: rest =>
    match takeVerbose verbose (· ≠ '\x7d') (skip verbose rest) with
    | (name, _ :: rest) => .ok (propertyOfText name, rest)
    | (_, []) => malformed
  | '\\' :: _ => malformed
  | c :: rest => .ok (.letter c, rest)
  | [] => malformed

/-! ## Escapes -/

/-- What can stand behind a backslash. -/
inductive Escape where
  | letter (l : Letter)
  | kind (k : CharKind) (negated : Bool)
  | property (p : PropertyName) (negated : Bool)
  | anchor (a : Anchor)
  | reference (group : Nat)
  deriving Inhabited

/-- Can a character that is no letter, digit or angle bracket be escaped? -/
def isEscapable (c : Char) : Bool :=
  c.toNat < 128 && !c.isAlphanum && c ≠ '<' && c ≠ '>'

/-- The kind that a letter behind a backslash names; capital letters stand for all others. -/
def kindOfLetter? : Char → Option (CharKind × Bool)
  | 'd' => some (.digit, false)
  | 'D' => some (.digit, true)
  | 's' => some (.blank, false)
  | 'S' => some (.blank, true)
  | 'w' => some (.word, false)
  | 'W' => some (.word, true)
  | _ => none

/-- The character that a letter behind a backslash stands for. -/
def specialLetter? : Char → Option Char
  | 'a' => some (Char.ofNat 7)
  | 'f' => some (Char.ofNat 12)
  | 'n' => some '\n'
  | 'r' => some '\r'
  | 't' => some '\t'
  | 'v' => some (Char.ofNat 11)
  | _ => none

/-- The place that a character behind a backslash names. -/
def anchorOfLetter? : Char → Option Anchor
  | 'A' => some .textStart
  | 'z' => some .textEnd
  | 'B' => some .notWordBoundary
  | '<' => some .wordStart
  | '>' => some .wordEnd
  | _ => none

/-- The place that a name in braces behind `\b` stands for. -/
def anchorNamed? : String → Option Anchor
  | "start" => some .wordStart
  | "end" => some .wordEnd
  | "start-half" => some .wordStartHalf
  | "end-half" => some .wordEndHalf
  | _ => none

/-- Reads what follows `\b`: a name in braces, if there are letters behind the brace. -/
def readBoundary (verbose : Bool) (cs : List Char) : Read (Anchor × List Char) :=
  let isNamePart (c : Char) : Bool := c.isAlpha || c = '-'
  match cs with
  | '\x7b' :: rest =>
    match skip verbose rest with
    | [] => malformed
    | c :: after =>
      if isNamePart c then
        match takeVerbose verbose isNamePart (c :: after) with
        | (name, '\x7d' :: rest) => do
          return (← ofOption (anchorNamed? (String.ofList name)), rest)
        | _ => malformed
      else .ok (.wordBoundary, cs)
  | cs => .ok (.wordBoundary, cs)

/-- The control character that a letter stands for. -/
def controlCharacter (c : Char) : Char := Char.ofNat (c.toNat % 32)

/-- Reads what stands behind a backslash. -/
def readEscape (d : Dialect) (verbose : Bool) : List Char → Read (Escape × List Char)
  | [] => malformed
  | c :: rest =>
    let hex (count : Nat) : Read (Escape × List Char) := do
      let (l, rest) ← readHex verbose count rest
      return (.letter l, rest)
    let property (negated : Bool) : Read (Escape × List Char) := do
      let (p, rest) ← readProperty verbose rest
      return (.property p negated, rest)
    match c with
    | 'x' => hex 2
    | 'u' => hex 4
    | 'U' => hex 8
    | 'p' => property false
    | 'P' => property true
    | 'b' => do
      let (a, rest) ← readBoundary verbose rest
      return (.anchor a, rest)
    | _ =>
      if c.isDigit then
        if d.looks && c ≠ '0' then
          let ds := rest.takeWhile Char.isDigit
          let n := (c :: ds).foldl (fun n c => n * 10 + (c.toNat - 48)) 0
          .ok (.reference n, rest.drop ds.length)
        else .error .reference
      else if isEscapable c then .ok (.letter ⟨c, .plain⟩, rest)
      else
        match kindOfLetter? c, specialLetter? c, anchorOfLetter? c with
        | some (k, negated), _, _ => .ok (.kind k negated, rest)
        | _, some special, _ => .ok (.letter ⟨special, if c = 'a' then .bell else .plain⟩, rest)
        | _, _, some a => .ok (.anchor a, rest)
        | none, none, none =>
          match c, rest with
          | 'c', l :: rest =>
            if d.control && l.isAlpha then .ok (.letter ⟨controlCharacter l, .plain⟩, rest)
            else malformed
          | _, _ => malformed

end LayeredAccess.Pattern
