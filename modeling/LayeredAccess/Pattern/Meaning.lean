/-
  LayeredAccess.Pattern.Meaning

  What a written pattern means: flags are carried from part to part, and classes
  become sets of characters. Without the flag `u` classes hold ASCII characters
  only, and whatever could match another byte than these is refused.
-/
import LayeredAccess.Pattern.Basic
import LayeredAccess.Pattern.Written
import LayeredAccess.Text.Age
import LayeredAccess.Text.Blank
import LayeredAccess.Text.CaseFold
import LayeredAccess.Text.Script

namespace LayeredAccess

namespace Text

/-! ## Names of properties -/

/-- A name in lower case without blanks, hyphens and underscores, and without `is` in front. -/
def normalName (s : String) : String :=
  let cs := s.toList
  let hasIs := (cs.take 2).map Char.toLower == ['i', 's']
  let cs := if hasIs then cs.drop 2 else cs
  let kept := cs.filter fun c => c.toNat < 128 && c ≠ ' ' && c ≠ '_' && c ≠ '-'
  let name := String.ofList (kept.map Char.toLower)
  if hasIs && name == "c" then "isc" else name

/-- The characters of a general category by its name; there are three more names. -/
def categorySet? : String → Option Ranges
  | "any" => some Ranges.all
  | "assigned" => some (Ranges.compl (Category.set .unassigned))
  | "ascii" => some [(0, 127)]
  | name => (Category.named? name).map Category.setOf

/-- The characters that a name stands for: a property, a general category or a script. -/
def namedSet? (name : String) : Option Ranges :=
  let name := normalName name
  ((Property.named? name).map Property.set).orElse fun _ =>
    (categorySet? name).orElse fun _ => (Script.named? name).map Script.set

/-- The characters for which a property has a value. -/
def valuedSet? (property value : String) : Option Ranges :=
  let value := normalName value
  match normalName property with
  | "gc" | "generalcategory" => categorySet? value
  | "sc" | "script" => (Script.named? value).map Script.set
  | "scx" | "scriptextensions" => (Script.named? value).map Script.extended
  | "age" => Age.upTo? value
  | _ => none

end Text

/-- Why a pattern is refused. -/
inductive PatternError where
  /-- The text is no pattern. -/
  | malformed
  /-- An automaton for the pattern would be too large. -/
  | tooLarge
  deriving DecidableEq, Inhabited, Repr

namespace Pattern

/-- The state of the flags. -/
structure Settings where
  anyCase : Bool := false
  multiLine : Bool := false
  dotAll : Bool := false
  swapGreed : Bool := false
  unicode : Bool := true
  carriage : Bool := false
  deriving DecidableEq, Inhabited, Repr

namespace Settings

/-- Sets or clears a flag. -/
def set (s : Settings) : Flag × Bool → Settings
  | (.anyCase, on) => { s with anyCase := on }
  | (.multiLine, on) => { s with multiLine := on }
  | (.dotAll, on) => { s with dotAll := on }
  | (.swapGreed, on) => { s with swapGreed := on }
  | (.unicode, on) => { s with unicode := on }
  | (.carriage, on) => { s with carriage := on }
  | (.verbose, _) => s

/-- Sets and clears flags. -/
def change (s : Settings) (flags : Flags) : Settings := flags.foldl set s

end Settings

/-- The result of working out what a pattern means. -/
abbrev Meant := Except PatternError

def refuse {α : Type} : Meant α := .error .malformed

/-! ## Sets -/

/-- The set of a class with a name. -/
def asciiClass : String → Text.Ranges
  | "alnum" => [(0x30, 0x39), (0x41, 0x5A), (0x61, 0x7A)]
  | "alpha" => [(0x41, 0x5A), (0x61, 0x7A)]
  | "ascii" => [(0, 0x7F)]
  | "blank" => [(0x09, 0x09), (0x20, 0x20)]
  | "cntrl" => [(0, 0x1F), (0x7F, 0x7F)]
  | "digit" => [(0x30, 0x39)]
  | "graph" => [(0x21, 0x7E)]
  | "lower" => [(0x61, 0x7A)]
  | "print" => [(0x20, 0x7E)]
  | "punct" => [(0x21, 0x2F), (0x3A, 0x40), (0x5B, 0x60), (0x7B, 0x7E)]
  | "space" => [(0x09, 0x0D), (0x20, 0x20)]
  | "upper" => [(0x41, 0x5A)]
  | "word" => [(0x30, 0x39), (0x41, 0x5A), (0x5F, 0x5F), (0x61, 0x7A)]
  | "xdigit" => [(0x30, 0x39), (0x41, 0x46), (0x61, 0x66)]
  | _ => []

/-- The set of a kind of characters. -/
def kindSet (unicode : Bool) : CharKind → Text.Ranges
  | .digit => if unicode then Text.digitRanges else asciiClass "digit"
  | .blank => if unicode then Text.blankRanges else asciiClass "space"
  | .word => if unicode then Text.wordRanges else asciiClass "word"

/-- A set with the case variants of its letters, all of them or those of ASCII. -/
def fold (s : Settings) (rs : Text.Ranges) : Text.Ranges :=
  if !s.anyCase then rs
  else if s.unicode then rs.withVariants
  else
    let shifted (low high : Nat) (shift : Int) : Text.Ranges :=
      (Text.Ranges.inter rs [(low, high)]).map fun r =>
        (((r.1 : Int) + shift).toNat, ((r.2 : Int) + shift).toNat)
    Text.Ranges.union rs (shifted 0x41 0x5A 32 ++ shifted 0x61 0x7A (-32))

/-- All characters outside of a set, if that is wanted. In bytes there would always be some that
are no characters. -/
def negateIf (s : Settings) (negated : Bool) (rs : Text.Ranges) : Meant Text.Ranges :=
  if !negated then .ok rs else if s.unicode then .ok rs.compl else refuse

/-- The set of a kind, or of all others. -/
def kindMeaning (s : Settings) (k : CharKind) (negated : Bool) : Meant Text.Ranges :=
  negateIf s negated (kindSet s.unicode k)

/-- The set of a property, or of all others. -/
def propertyMeaning (s : Settings) (p : PropertyName) (negated : Bool) : Meant Text.Ranges :=
  let found := match p with
    | .letter c => Text.namedSet? (String.singleton c)
    | .named name => Text.namedSet? name
    | .valued name value => Text.valuedSet? name value
  match found with
  | some rs => if s.unicode then negateIf s negated (fold s rs) else refuse
  | none => refuse

/-- The code point of a character inside brackets. -/
def letterCode (s : Settings) (l : Letter) : Meant Nat :=
  if s.unicode || l.char.toNat < 128 then .ok l.char.toNat else refuse

/-- The set of an operation. -/
def SetOp.apply : SetOp → Text.Ranges → Text.Ranges → Text.Ranges
  | .inter, a, b => Text.Ranges.inter a b
  | .diff, a, b => Text.Ranges.diff a b
  | .symmDiff, a, b => Text.Ranges.symmDiff a b

mutual

/-- The set of a class. -/
def setMeaning (s : Settings) : WrittenSet → Meant Text.Ranges
  | .empty => .ok []
  | .one l => do
    let n ← letterCode s l
    return [(n, n)]
  | .range a b => do return [(← letterCode s a, ← letterCode s b)]
  | .named name negated => negateIf s negated (fold s (asciiClass name))
  | .kind k negated => kindMeaning s k negated
  | .property p negated => propertyMeaning s p negated
  | .bracketed negated inner => do negateIf s negated (fold s (← setMeaning s inner))
  | .union parts => do return Text.Ranges.sorted (← setsMeaning s parts)
  | .combined op a b => do
    let x ← setMeaning s a
    let y ← setMeaning s b
    return op.apply (fold s x) (fold s y)

/-- The sets of some classes together. -/
def setsMeaning (s : Settings) : List WrittenSet → Meant Text.Ranges
  | [] => .ok []
  | w :: rest => do
    let rs ← setMeaning s w
    return rs ++ (← setsMeaning s rest)

end

/-! ## Patterns -/

/-- What a character means: itself, or all its case variants. -/
def letterMeaning (s : Settings) (l : Letter) : Meant Pattern :=
  let n := l.char.toNat
  if !s.unicode && l.form = .byte && 128 ≤ n then refuse
  else if !s.unicode && 128 ≤ n then .ok (.literal [l.char])
  else .ok (ofSet (Text.Ranges.sorted (fold s [(n, n)])))

/-- The characters that the dot stands for. -/
def dotMeaning (s : Settings) : Meant Pattern :=
  if !s.unicode then refuse
  else if s.dotAll then .ok (.set Text.Ranges.all)
  else if s.carriage then .ok (.set (Text.Ranges.compl [(0x0A, 0x0A), (0x0D, 0x0D)]))
  else .ok (.set (Text.Ranges.compl [(0x0A, 0x0A)]))

/-- The place that an anchor names. -/
def anchorMeaning (s : Settings) : Anchor → Place
  | .lineStart => if s.multiLine then .lineStart s.carriage else .textStart
  | .lineEnd => if s.multiLine then .lineEnd s.carriage else .textEnd
  | .textStart => .textStart
  | .textEnd => .textEnd
  | .wordBoundary => .word .boundary s.unicode
  | .notWordBoundary => .word .notBoundary s.unicode
  | .wordStart => .word .start s.unicode
  | .wordEnd => .word .finish s.unicode
  | .wordStartHalf => .word .startHalf s.unicode
  | .wordEndHalf => .word .finishHalf s.unicode

mutual

/-- What a written pattern means, and the flags for what follows it. -/
def meaning (s : Settings) : Written → Meant (Pattern × Settings)
  | .empty => .ok (.empty, s)
  | .flags change => .ok (.empty, s.change change)
  | .letter l => do return (← letterMeaning s l, s)
  | .dot => do return (← dotMeaning s, s)
  | .anchor a => .ok (.place (anchorMeaning s a), s)
  | .kind k negated => do return (ofSet (← kindMeaning s k negated), s)
  | .property p negated => do return (ofSet (← propertyMeaning s p negated), s)
  | .set negated inner => do
    return (ofSet (← negateIf s negated (fold s (← setMeaning s inner))), s)
  | .reference _ => refuse
  | .group kind w =>
    match kind with
    | .capture index => do
      let (p, _) ← meaning s w
      return (.group index p, s)
    | .plain flags => do
      let (p, _) ← meaning (s.change flags) w
      return (p, s)
    | .look _ _ | .atomic => refuse
  | .count w least most lazy => do
    let (p, _) ← meaning s w
    return (countOf p least most (lazy != s.swapGreed), s)
  | .concat parts => do
    let (ps, s) ← meanings s parts
    return (concatOf ps, s)
  | .alternative choices => do
    let (ps, s) ← meanings s choices
    return (alternativeOf ps, s)

/-- What some written patterns mean one after the other. -/
def meanings (s : Settings) : List Written → Meant (List Pattern × Settings)
  | [] => .ok ([], s)
  | w :: rest => do
    let (p, s) ← meaning s w
    let (ps, s) ← meanings s rest
    return (p :: ps, s)

end

end Pattern

end LayeredAccess
