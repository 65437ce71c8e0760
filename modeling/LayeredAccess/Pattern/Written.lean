/-
  LayeredAccess.Pattern.Written

  Patterns as they are written: the tree of a pattern before flags and classes
  are worked out. `Written.depth` counts how deep the parts of a pattern nest.
-/

namespace LayeredAccess.Pattern

/-- The ways to write a character that are told apart. -/
inductive LetterForm where
  | plain
  /-- Two hexadecimal digits behind `\x`. -/
  | byte
  /-- The name `\a` of the bell. -/
  | bell
  deriving DecidableEq, Inhabited, Repr

/-- One character of a pattern. -/
structure Letter where
  char : Char
  form : LetterForm := .plain
  deriving DecidableEq, Inhabited, Repr

/-- The kinds of characters that a letter behind a backslash names. -/
inductive CharKind where
  | digit
  | blank
  | word
  deriving DecidableEq, Inhabited, Repr

/-- A property of characters, as it is written. -/
inductive PropertyName where
  /-- A single letter. -/
  | letter (c : Char)
  | named (name : String)
  | valued (name value : String)
  deriving DecidableEq, Inhabited, Repr

/-- The operations on sets inside brackets. -/
inductive SetOp where
  | inter
  | diff
  | symmDiff
  deriving DecidableEq, Inhabited, Repr

/-- A class of characters inside brackets. -/
inductive WrittenSet where
  | empty
  | one (l : Letter)
  | range (first last : Letter)
  /-- A class with a name between `[:` and `:]`. -/
  | named (name : String) (negated : Bool)
  | kind (k : CharKind) (negated : Bool)
  | property (p : PropertyName) (negated : Bool)
  /-- Brackets in brackets. -/
  | bracketed (negated : Bool) (s : WrittenSet)
  /-- Two parts or more side by side. -/
  | union (parts : List WrittenSet)
  | combined (op : SetOp) (a b : WrittenSet)
  deriving Inhabited

/-- The places in a text that a pattern can name. -/
inductive Anchor where
  | lineStart
  | lineEnd
  | textStart
  | textEnd
  | wordBoundary
  | notWordBoundary
  | wordStart
  | wordEnd
  /-- No word ahead. -/
  | wordStartHalf
  /-- No word behind. -/
  | wordEndHalf
  deriving DecidableEq, Inhabited, Repr

/-- The flags that change what a pattern means. -/
inductive Flag where
  /-- `i`: letters match in any case. -/
  | anyCase
  /-- `m`: `^` and `$` match at the ends of lines too. -/
  | multiLine
  /-- `s`: `.` matches the ends of lines too. -/
  | dotAll
  /-- `U`: repetitions prefer to be short. -/
  | swapGreed
  /-- `u`: classes hold the characters of all scripts. -/
  | unicode
  /-- `R`: a carriage return ends a line too. -/
  | carriage
  /-- `x`: blanks and comments in the pattern do not count. -/
  | verbose
  deriving DecidableEq, Inhabited, Repr

/-- Flags that are set or cleared. -/
abbrev Flags := List (Flag × Bool)

/-- What parentheses do to what they hold. -/
inductive GroupKind where
  /-- They remember what it matches, under a number. -/
  | capture (index : Nat)
  /-- They only change flags. -/
  | plain (flags : Flags)
  /-- They match it without moving on, ahead or behind. -/
  | look (ahead negated : Bool)
  /-- They take its first match and no other. -/
  | atomic
  deriving DecidableEq, Inhabited, Repr

/-- A pattern as it is written. -/
inductive Written where
  | empty
  /-- Flags for what follows. -/
  | flags (change : Flags)
  | letter (l : Letter)
  | dot
  | anchor (a : Anchor)
  | kind (k : CharKind) (negated : Bool)
  | property (p : PropertyName) (negated : Bool)
  | set (negated : Bool) (s : WrittenSet)
  /-- What a group has matched. -/
  | reference (group : Nat)
  | group (kind : GroupKind) (w : Written)
  | count (w : Written) (least : Nat) (most : Option Nat) (lazy : Bool)
  /-- Two parts or more in a row. -/
  | concat (parts : List Written)
  /-- Two choices or more. -/
  | alternative (choices : List Written)
  deriving Inhabited

namespace Written

/-- Parts in a row, whatever their number. -/
def ofParts : List Written → Written
  | [] => .empty
  | [w] => w
  | ws => .concat ws

/-- Choices, whatever their number. -/
def ofChoices : List Written → Written
  | [] => .empty
  | [w] => w
  | ws => .alternative ws

end Written

/-- Parts of a class side by side, whatever their number. -/
def WrittenSet.ofParts : List WrittenSet → WrittenSet
  | [] => .empty
  | [s] => s
  | ss => .union ss

/-! ## Depth -/

mutual

/-- How deep the parts of a class nest. -/
def WrittenSet.depth : WrittenSet → Nat
  | .bracketed _ s => s.depth + 1
  | .union parts => depths parts + 1
  | .combined _ a b => max a.depth b.depth + 1
  | _ => 0

/-- The greatest depth of some classes. -/
def WrittenSet.depths : List WrittenSet → Nat
  | [] => 0
  | s :: rest => max s.depth (depths rest)

end

mutual

/-- How deep the parts of a pattern nest. -/
def Written.depth : Written → Nat
  | .set _ s => s.depth + 1
  | .group _ w => w.depth + 1
  | .count w _ _ _ => w.depth + 1
  | .concat parts => depths parts + 1
  | .alternative choices => depths choices + 1
  | _ => 0

/-- The greatest depth of some patterns. -/
def Written.depths : List Written → Nat
  | [] => 0
  | w :: rest => max w.depth (depths rest)

end

/-- The greatest depth that a pattern may have. -/
def depthLimit : Nat := 250

end LayeredAccess.Pattern
