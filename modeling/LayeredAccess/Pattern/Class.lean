/-
  LayeredAccess.Pattern.Class

  Reading classes of characters in brackets: single characters, ranges, classes
  with names, brackets in brackets, and operations between them.
-/
import LayeredAccess.Pattern.Escape

namespace LayeredAccess.Pattern

/-- The names that can stand between `[:` and `:]`. -/
def classNames : List String :=
  ["alnum", "alpha", "ascii", "blank", "cntrl", "digit", "graph", "lower", "print", "punct",
   "space", "upper", "word", "xdigit"]

/-- Reads a class with a name behind its opening bracket. -/
def readNamedClass : List Char → Option (WrittenSet × List Char)
  | ':' :: rest =>
    let (negated, rest) := match rest with
      | '^' :: rest => (true, rest)
      | rest => (false, rest)
    let name := String.ofList (rest.takeWhile (· ≠ ':'))
    match rest.dropWhile (· ≠ ':') with
    | ':' :: ']' :: after =>
      if classNames.contains name then some (.named name negated, after) else none
    | _ => none
  | _ => none

/-- An open bracket. -/
structure Bracket where
  negated : Bool
  /-- What stands ahead of the last operation. -/
  pending : Option (WrittenSet × SetOp) := none
  /-- The parts behind the last operation, last first. -/
  parts : List WrittenSet := []

namespace Bracket

def add (b : Bracket) (s : WrittenSet) : Bracket := { b with parts := s :: b.parts }

/-- The class up to here. -/
def value (b : Bracket) : WrittenSet :=
  let last := WrittenSet.ofParts b.parts.reverse
  match b.pending with
  | some (left, op) => .combined op left last
  | none => last

/-- An operation between what stands ahead and what follows. -/
def operate (b : Bracket) (op : SetOp) : Bracket :=
  { b with pending := some (b.value, op), parts := [] }

end Bracket

/-- Splits hyphens off the front of a text. -/
def takeHyphens (verbose : Bool) (cs : List Char) : List Char × List Char :=
  takeVerbose verbose (· = '-') cs

/-- Opens a bracket: a caret negates it, and hyphens and a closing bracket ahead of everything else
stand for themselves. -/
def openBracket (verbose : Bool) (cs : List Char) : Read (Bracket × List Char) :=
  let (negated, cs) := match skip verbose cs with
    | '^' :: rest => (true, skip verbose rest)
    | rest => (false, rest)
  let (hyphens, cs) := takeHyphens verbose cs
  let b := hyphens.foldl (fun b c => b.add (.one ⟨c, .plain⟩)) { negated }
  match hyphens, cs with
  | _, [] => malformed
  | [], ']' :: rest => .ok (b.add (.one ⟨']', .plain⟩), skip verbose rest)
  | _, cs => .ok (b, cs)

/-- Reads one end of a range, or what stands alone. -/
def readClassAtom (d : Dialect) (verbose : Bool) : List Char → Read (Escape × List Char)
  | '\\' :: rest => readEscape d verbose rest
  | c :: rest => .ok (.letter ⟨c, .plain⟩, rest)
  | [] => malformed

/-- What an escape stands for inside of brackets. -/
def setOfEscape : Escape → Read WrittenSet
  | .letter l => .ok (.one l)
  | .kind k negated => .ok (.kind k negated)
  | .property p negated => .ok (.property p negated)
  | .anchor _ | .reference _ => malformed

/-- The character that an escape stands for. -/
def letterOfEscape : Escape → Read Letter
  | .letter l => .ok l
  | _ => malformed

/-- Reads a range, or what stands alone. A hyphen makes no range ahead of a closing bracket or
another hyphen. -/
def readClassItem (d : Dialect) (verbose : Bool) (cs : List Char) :
    Read (WrittenSet × List Char) := do
  let (first, rest) ← readClassAtom d verbose cs
  let alone (rest : List Char) : Read (WrittenSet × List Char) := do
    return (← setOfEscape first, rest)
  match skip verbose rest with
  | [] => malformed
  | '-' :: after =>
    match skip verbose after with
    | ']' :: _ | '-' :: _ => alone ('-' :: after)
    | after =>
      let (last, rest) ← readClassAtom d verbose after
      let a ← letterOfEscape first
      let b ← letterOfEscape last
      if a.char ≤ b.char then return (.range a b, rest) else malformed
  | rest => alone rest

/-- One step inside brackets: the open brackets and the rest of the text, or the whole class and
whether it is negated. -/
def classStep (d : Dialect) (verbose : Bool) (b : Bracket) (outer : List Bracket) :
    List Char → Read (((Bool × WrittenSet) ⊕ List Bracket) × List Char)
  | '[' :: rest =>
    match readNamedClass rest with
    | some (s, rest) => .ok (.inr (b.add s :: outer), rest)
    | none => do
      let (inner, rest) ← openBracket verbose rest
      return (.inr (inner :: b :: outer), rest)
  | ']' :: rest =>
    match outer with
    | [] => .ok (.inl (b.negated, b.value), rest)
    | o :: outer => .ok (.inr (o.add (.bracketed b.negated b.value) :: outer), rest)
  | '&' :: '&' :: rest => .ok (.inr (b.operate .inter :: outer), rest)
  | '-' :: '-' :: rest => .ok (.inr (b.operate .diff :: outer), rest)
  | '~' :: '~' :: rest => .ok (.inr (b.operate .symmDiff :: outer), rest)
  | cs => do
    let (s, rest) ← readClassItem d verbose cs
    return (.inr (b.add s :: outer), rest)

/-- Reads on inside brackets up to the end of the outermost one; the innermost stands first. -/
def readClassFrom (d : Dialect) (verbose : Bool) (brackets : List Bracket) (cs : List Char) :
    Read ((Bool × WrittenSet) × List Char) :=
  match brackets with
  | [] => malformed
  | b :: outer =>
    match classStep d verbose b outer (skip verbose cs) with
    | .error e => .error e
    | .ok (.inl s, rest) => .ok (s, rest)
    | .ok (.inr brackets, rest) =>
      if rest.length < cs.length then readClassFrom d verbose brackets rest else malformed
termination_by cs.length

/-- Reads a class behind its opening bracket: whether it is negated, and what it holds. -/
def readClass (d : Dialect) (verbose : Bool) (cs : List Char) :
    Read ((Bool × WrittenSet) × List Char) := do
  let (b, rest) ← openBracket verbose cs
  readClassFrom d verbose [b] rest

end LayeredAccess.Pattern
