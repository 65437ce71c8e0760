/-
  LayeredAccess.Pattern.Basic

  Patterns that texts are searched for, in a form without needless parts: a row
  in a row and a choice in a choice are taken apart, neighbouring literals are
  one, a choice between single characters is a set.
-/
import LayeredAccess.Text.Word

namespace LayeredAccess

/-- A place with respect to words. -/
inductive WordPlace where
  | boundary
  | notBoundary
  | start
  | finish
  /-- No word ahead. -/
  | startHalf
  /-- No word behind. -/
  | finishHalf
  deriving DecidableEq, Inhabited, Repr

/-- A condition on a place in a text. -/
inductive Place where
  | textStart
  | textEnd
  /-- The start of a line; a carriage return may end lines too. -/
  | lineStart (carriage : Bool)
  | lineEnd (carriage : Bool)
  /-- A place of words, which have the characters of all scripts or of ASCII only. -/
  | word (place : WordPlace) (unicode : Bool)
  deriving DecidableEq, Inhabited, Repr

namespace Place

/-- Is a character part of a word? -/
def isWordPart (unicode : Bool) (c : Char) : Bool :=
  if unicode then Text.isWord c else c.isAlphanum || c = '_'

/-- Does a word condition hold between what is part of a word or not? -/
def holdsBetween (place : WordPlace) (before after : Bool) : Bool :=
  match place with
  | .boundary => before != after
  | .notBoundary => before == after
  | .start => !before && after
  | .finish => before && !after
  | .startHalf => !before
  | .finishHalf => !after

/-- Does the condition hold between two neighbouring characters? At either end of the text one of
them is missing. No line starts or ends between a carriage return and a line feed where both end
lines. -/
def holds (p : Place) (before after : Option Char) : Bool :=
  match p with
  | textStart => before.isNone
  | textEnd => after.isNone
  | lineStart carriage =>
    before.all (· = '\n') || (carriage && before == some '\r' && after != some '\n')
  | lineEnd carriage =>
    if carriage then
      after.all (· = '\r') || (after == some '\n' && before != some '\r')
    else after.all (· = '\n')
  | word place unicode =>
    holdsBetween place (before.any (isWordPart unicode)) (after.any (isWordPart unicode))

end Place

/-- What to search a text for. -/
inductive Pattern where
  /-- The empty stretch. -/
  | empty
  /-- A text, which is not empty. -/
  | literal (cs : List Char)
  /-- One character of a set, which has none or more than one. -/
  | set (rs : Text.Ranges)
  /-- The empty stretch at certain places. -/
  | place (p : Place)
  /-- At least and at most so many stretches in a row. -/
  | count (p : Pattern) (least : Nat) (most : Option Nat) (lazy : Bool)
  /-- A stretch that is remembered under a number. -/
  | group (index : Nat) (p : Pattern)
  /-- Two parts or more in a row. -/
  | concat (ps : List Pattern)
  /-- Two choices or more. -/
  | alternative (ps : List Pattern)
  deriving Inhabited, Repr

namespace Pattern

/-! ## Equality -/

mutual

/-- Are two patterns the same? -/
def same : Pattern → Pattern → Bool
  | .empty, .empty => true
  | .literal a, .literal b => a == b
  | .set a, .set b => a == b
  | .place p, .place q => p == q
  | .count p l m z, .count q l' m' z' => l == l' && m == m' && z == z' && same p q
  | .group i p, .group j q => i == j && same p q
  | .concat ps, .concat qs => sameAll ps qs
  | .alternative ps, .alternative qs => sameAll ps qs
  | _, _ => false

/-- Are two lists of patterns the same? -/
def sameAll : List Pattern → List Pattern → Bool
  | [], [] => true
  | p :: ps, q :: qs => same p q && sameAll ps qs
  | _, _ => false

end

/-! ## Lengths -/

mutual

/-- Can the pattern match nothing but the empty stretch? -/
def isEmptyOnly : Pattern → Bool
  | .empty | .place _ => true
  | .literal _ | .set _ => false
  | .count p _ _ _ | .group _ p => isEmptyOnly p
  | .concat ps | .alternative ps => areEmptyOnly ps

/-- Can none of the patterns match anything but the empty stretch? -/
def areEmptyOnly : List Pattern → Bool
  | [] => true
  | p :: ps => isEmptyOnly p && areEmptyOnly ps

end

mutual

/-- Does every match have a character, as far as is known? Nothing is known of a set without
characters. -/
def isLong : Pattern → Option Bool
  | .empty | .place _ => some false
  | .literal _ => some true
  | .set rs => if rs.isEmpty then none else some true
  | .count p least _ _ => (isLong p).map (· && 0 < least)
  | .group _ p => isLong p
  | .concat ps => isLongSome ps
  | .alternative ps => areLong ps

/-- Does some pattern of a row always have a character? -/
def isLongSome : List Pattern → Option Bool
  | [] => some false
  | p :: ps =>
    match isLong p, isLongSome ps with
    | some a, some b => some (a || b)
    | _, _ => none

/-- Do all of some patterns always have a character? -/
def areLong : List Pattern → Option Bool
  | [] => some true
  | p :: ps =>
    match isLong p, areLong ps with
    | some a, some b => some (a && b)
    | _, _ => none

end

/-! ## Building -/

/-- A pattern for one character of a set. -/
def ofSet : Text.Ranges → Pattern
  | [(a, b)] => if a = b then .literal [Char.ofNat a] else .set [(a, b)]
  | rs => .set rs

/-- Puts a pattern in front of a row; neighbouring literals are joined. -/
def consPart : Pattern → List Pattern → List Pattern
  | .literal a, .literal b :: rest => .literal (a ++ b) :: rest
  | .empty, rest => rest
  | p, rest => p :: rest

/-- The parts of a row. -/
def parts : Pattern → List Pattern
  | .concat ps => ps
  | p => [p]

/-- Patterns in a row, whatever their number. -/
def concatOf (ps : List Pattern) : Pattern :=
  match (ps.flatMap parts).foldr consPart [] with
  | [] => .empty
  | [p] => p
  | ps => .concat ps

/-- The choices of an alternative. -/
def choices : Pattern → List Pattern
  | .alternative ps => ps
  | p => [p]

/-- The set of a pattern that is a single character. -/
def single? : Pattern → Option Text.Ranges
  | .literal [c] => some [(c.toNat, c.toNat)]
  | _ => none

/-- The set of a pattern that is a set. -/
def set? : Pattern → Option Text.Ranges
  | .set rs => some rs
  | _ => none

/-- The number of patterns that two rows have in common at their front. -/
def commonLength : List Pattern → List Pattern → Nat
  | p :: ps, q :: qs => if same p q then commonLength ps qs + 1 else 0
  | _, _ => 0

/-- The rows of patterns that all are rows. -/
def rows? (ps : List Pattern) : Option (List (List Pattern)) :=
  ps.mapM fun p => match p with
    | .concat qs => some qs
    | _ => none

/-- The number of patterns that all of some rows have in common at their front. -/
def sharedLength : List (List Pattern) → Nat
  | [] => 0
  | row :: rows => rows.foldl (fun n r => min n (commonLength row r)) row.length

/-- A choice between patterns, whatever their number. What all choices start with is put in front,
so many times at most. -/
def alternativeWithin : Nat → List Pattern → Pattern
  | bound, ps =>
    match ps.flatMap choices with
    | [] => .set []
    | [p] => p
    | ps =>
      match ps.mapM single?, ps.mapM set? with
      | some sets, _ | none, some sets => ofSet (Text.Ranges.sorted sets.flatten)
      | none, none =>
        match bound, rows? ps with
        | bound + 1, some rows =>
          let n := sharedLength rows
          if n = 0 then .alternative ps
          else
            let front := (rows.head?.getD []).take n
            let tails := rows.map fun r => concatOf (r.drop n)
            concatOf (front ++ [alternativeWithin bound tails])
        | _, _ => .alternative ps

/-- The number of parts in some patterns that are rows. -/
def partCount (ps : List Pattern) : Nat := (ps.flatMap fun p => p.parts).length

/-- A choice between patterns, whatever their number. -/
def alternativeOf (ps : List Pattern) : Pattern := alternativeWithin (partCount ps) ps

/-- A repetition. What matches only the empty stretch is repeated once at most. -/
def countOf (p : Pattern) (least : Nat) (most : Option Nat) (lazy : Bool) : Pattern :=
  let (least, most) :=
    if p.isEmptyOnly then (min least 1, some (min (most.getD 1) 1)) else (least, most)
  if most = some 0 then .empty
  else if least = 1 && most = some 1 then p
  else .count p least most lazy

end Pattern

end LayeredAccess
