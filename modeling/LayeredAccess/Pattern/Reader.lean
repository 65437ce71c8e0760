/-
  LayeredAccess.Pattern.Reader

  Texts to written patterns: literals and escapes, `.`, classes, anchors,
  groups, alternatives and repetitions. Reading is one pass with a stack of open
  groups; the first thing that cannot be read ends it.
-/
import LayeredAccess.Pattern.Class
import LayeredAccess.Text.Word

namespace LayeredAccess.Pattern

/-! ## Repetitions -/

/-- The number that decimal digits stand for, if there are any and it has at most 32 bits. -/
def number? (ds : List Char) : Option Nat :=
  if ds.isEmpty then none
  else
    let n := ds.foldl (fun n c => n * 10 + (c.toNat - '0'.toNat)) 0
    if n < 4294967296 then some n else none

/-- The outcome of reading a number: a number, no digits, or digits that are too many. -/
inductive Count where
  | number (n : Nat)
  | missing
  | tooLarge
  deriving DecidableEq, Repr

/-- Reads a decimal number with blanks around it. -/
def readCount (verbose : Bool) (cs : List Char) : Count × List Char :=
  let (ds, rest) := takeVerbose verbose Char.isDigit (cs.dropWhile Text.isBlank)
  let rest := (takeVerbose verbose Text.isBlank rest).2
  if ds.isEmpty then (.missing, rest)
  else ((number? ds).elim .tooLarge .number, rest)

/-- The number that has been read. -/
def Count.value : Count → Read Nat
  | number n => .ok n
  | _ => malformed

/-- The end of the bounds of a repetition. -/
def closeBounds {α : Type} (bounds : α) : List Char → Read (α × List Char)
  | '\x7d' :: rest => .ok (bounds, rest)
  | _ => malformed

/-- Reads the bounds of a repetition behind its opening brace. -/
def readBounds (verbose : Bool) (cs : List Char) : Read ((Nat × Option Nat) × List Char) := do
  let (least, rest) := readCount verbose (skip verbose cs)
  match rest with
  | ',' :: rest =>
    match skip verbose rest with
    | '\x7d' :: rest => return ((← least.value, none), rest)
    | rest =>
      let least ← least.value
      let (most, rest) := readCount verbose rest
      let most ← most.value
      let (bounds, rest) ← closeBounds (least, some most) rest
      if least ≤ most then return (bounds, rest) else malformed
  | rest =>
    let least ← least.value
    closeBounds (least, some least) rest

/-! ## Groups -/

/-- The flag that a letter stands for. -/
def flagOfLetter? : Char → Option Flag
  | 'i' => some .anyCase
  | 'm' => some .multiLine
  | 's' => some .dotAll
  | 'U' => some .swapGreed
  | 'u' => some .unicode
  | 'R' => some .carriage
  | 'x' => some .verbose
  | _ => none

/-- Reads flags up to `)` or `:`. No flag is given twice, and flags stand behind a minus sign;
`on` tells that there was none yet, `dangling` that it was the last thing. -/
def readFlags (on dangling : Bool) (flags : Flags) : List Char → Read ((Flags × Char) × List Char)
  | [] => malformed
  | c :: rest =>
    if c = ')' || c = ':' then
      if dangling then malformed else .ok ((flags.reverse, c), rest)
    else if c = '-' then
      if on then readFlags false true flags rest else malformed
    else
      match flagOfLetter? c with
      | some f =>
        if flags.any (·.1 = f) then malformed else readFlags on false ((f, on) :: flags) rest
      | none => malformed

/-- The state of a flag, if it is among some. -/
def flagState? (flags : Flags) (f : Flag) : Option Bool := (flags.find? (·.1 = f)).map (·.2)

/-- Is a text the name of a group? -/
def isGroupName : List Char → Bool
  | [] => false
  | c :: rest =>
    (c = '_' || Text.isAlphabetic c) &&
      rest.all fun c => c = '_' || c = '.' || c = '[' || c = ']' || Text.isAlphanumeric c

/-- Reads the name of a group up to `>`. -/
def readGroupName (cs : List Char) : Read (String × List Char) :=
  let name := cs.takeWhile (· ≠ '>')
  match cs.dropWhile (· ≠ '>') with
  | _ :: rest => if isGroupName name then .ok (String.ofList name, rest) else malformed
  | [] => malformed

/-- An open group: what it does, and what stands ahead of it. -/
structure Frame where
  kind : GroupKind
  /-- Do blanks count again behind the group? -/
  verbose : Bool
  /-- The parts ahead of it, last first. -/
  parts : List Written
  /-- The alternatives ahead of these, last first. -/
  choices : List Written

/-- How far reading has come. -/
structure Reading where
  dialect : Dialect := {}
  verbose : Bool := false
  /-- The parts of the current alternative, last first. -/
  parts : List Written := []
  /-- The alternatives ahead of it, last first. -/
  choices : List Written := []
  /-- The open groups, innermost first. -/
  frames : List Frame := []
  /-- The number of groups that remember. -/
  groups : Nat := 0
  /-- The names of groups, with their numbers. -/
  names : List (String × Nat) := []

namespace Reading

def add (r : Reading) (w : Written) : Reading := { r with parts := w :: r.parts }

/-- Everything in the current group. -/
def value (r : Reading) : Written :=
  Written.ofChoices (Written.ofParts r.parts.reverse :: r.choices).reverse

/-- Starts the next alternative. -/
def next (r : Reading) : Reading :=
  { r with parts := [], choices := Written.ofParts r.parts.reverse :: r.choices }

/-- Opens a group. -/
def enter (r : Reading) (kind : GroupKind) (verbose : Bool) : Reading :=
  { r with
    verbose
    parts := []
    choices := []
    frames := ⟨kind, r.verbose, r.parts, r.choices⟩ :: r.frames }

/-- Opens a group that remembers what it matches. -/
def enterCapture (r : Reading) : Reading :=
  { r.enter (.capture (r.groups + 1)) r.verbose with groups := r.groups + 1 }

/-- Closes the current group, if one is open. -/
def close (r : Reading) : Read Reading :=
  match r.frames with
  | [] => malformed
  | f :: frames =>
    .ok { r with
      verbose := f.verbose
      parts := .group f.kind r.value :: f.parts
      choices := f.choices
      frames }

/-- Repeats the last part; there has to be one that can be repeated. -/
def count (r : Reading) (least : Nat) (most : Option Nat) (lazy : Bool) : Read Reading :=
  match r.parts with
  | [] | .empty :: _ | .flags _ :: _ => malformed
  | w :: rest => .ok { r with parts := .count w least most lazy :: rest }

/-- Repeats the last part; a question mark behind makes the repetition prefer to be short. -/
def countBy (r : Reading) (least : Nat) (most : Option Nat) :
    List Char → Read (Reading × List Char)
  | '?' :: rest => do return (← r.count least most true, rest)
  | rest => do return (← r.count least most false, rest)

/-- Reads what stands behind `(?` and is no name: flags for what follows, or for a group. -/
def readFlagGroup (r : Reading) (cs : List Char) : Read (Reading × List Char) := do
  let ((flags, stop), rest) ← readFlags true false [] cs
  let verbose := (flagState? flags .verbose).getD r.verbose
  if stop = ':' then return (r.enter (.plain flags) verbose, rest)
  else if flags.isEmpty then malformed
  else return ({ r.add (.flags flags) with verbose }, rest)

/-- Reads the name of a group, and opens it. -/
def readNamedGroup (r : Reading) (cs : List Char) : Read (Reading × List Char) := do
  let (name, rest) ← readGroupName cs
  if r.names.any (·.1 == name) then malformed
  else
    let r := r.enterCapture
    return ({ r with names := (name, r.groups) :: r.names }, rest)

/-- The kind of group that looks around, by the marks behind `(?`. -/
def lookOf? : List Char → Option (GroupKind × List Char)
  | '=' :: rest => some (.look true false, rest)
  | '!' :: rest => some (.look true true, rest)
  | '<' :: '=' :: rest => some (.look false false, rest)
  | '<' :: '!' :: rest => some (.look false true, rest)
  | _ => none

/-- Opens what stands behind an opening parenthesis: a group, or a change of flags. -/
def readGroup (r : Reading) (cs : List Char) : Read (Reading × List Char) :=
  match skip r.verbose cs with
  | '?' :: rest =>
    match lookOf? rest with
    | some (kind, rest) =>
      if r.dialect.looks then .ok (r.enter kind r.verbose, rest) else .error .lookAround
    | none =>
      match rest with
      | 'P' :: '<' :: rest => r.readNamedGroup rest
      | '<' :: rest => r.readNamedGroup rest
      | '>' :: rest =>
        if r.dialect.looks then .ok (r.enter .atomic r.verbose, rest) else malformed
      | rest => r.readFlagGroup rest
  | rest => .ok (r.enterCapture, rest)

/-- Reads one unit of a pattern. -/
def step (r : Reading) (c : Char) (rest : List Char) : Read (Reading × List Char) :=
  match c with
  | '(' => r.readGroup rest
  | ')' => do return (← r.close, rest)
  | '|' => .ok (r.next, rest)
  | '*' => r.countBy 0 none rest
  | '+' => r.countBy 1 none rest
  | '?' => r.countBy 0 (some 1) rest
  | '\x7b' =>
    match r.parts with
    | [] | .empty :: _ | .flags _ :: _ => malformed
    | _ => do
      let ((least, most), rest) ← readBounds r.verbose rest
      r.countBy least most (skip r.verbose rest)
  | '[' => do
    let ((negated, s), rest) ← readClass r.dialect r.verbose rest
    return (r.add (.set negated s), rest)
  | '.' => .ok (r.add .dot, rest)
  | '^' => .ok (r.add (.anchor .lineStart), rest)
  | '$' => .ok (r.add (.anchor .lineEnd), rest)
  | '\\' => do
    match ← readEscape r.dialect r.verbose rest with
    | (.letter l, rest) => return (r.add (.letter l), rest)
    | (.kind k negated, rest) => return (r.add (.kind k negated), rest)
    | (.property p negated, rest) => return (r.add (.property p negated), rest)
    | (.anchor a, rest) => return (r.add (.anchor a), rest)
    | (.reference n, rest) => return (r.add (.reference n), rest)
  | c => .ok (r.add (.letter ⟨c, .plain⟩), rest)

/-- Reads on to the end of the text. -/
def run (r : Reading) (cs : List Char) : Read Reading :=
  match skip r.verbose cs with
  | [] => if r.frames.isEmpty then .ok r else malformed
  | c :: rest =>
    match r.step c rest with
    | .error e => .error e
    | .ok (r, rest) => if rest.length < cs.length then run r rest else malformed
termination_by cs.length

end Reading

/-- Reads a pattern as it is written. -/
def readWritten (d : Dialect) (text : String) : Read Written := do
  let r ← Reading.run { dialect := d } text.toList
  if r.value.depth ≤ depthLimit then return r.value else malformed

end LayeredAccess.Pattern
