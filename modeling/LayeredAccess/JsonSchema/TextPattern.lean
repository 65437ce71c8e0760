/-
  LayeredAccess.JsonSchema.TextPattern

  The patterns of schemas. Their classes `\d`, `\w` and `\s` have fixed
  characters, `\c` and a letter name a control character, a plus sign behind a
  repetition keeps it from giving anything back, and patterns may look around
  and refer to groups. A pattern that does so is taken with the classes of all
  other patterns.
-/
import LayeredAccess.Pattern.LookAround
import LayeredAccess.Pattern.Search

namespace LayeredAccess

/-- A pattern of a schema. -/
inductive TextPattern where
  | plain (p : Pattern)
  | looking (s : Pattern.Seeker)
  deriving Inhabited, Repr

namespace TextPattern

open Pattern

/-- Does some stretch of a text match? -/
def isMatch : TextPattern → String → Bool
  | plain p, text => p.isMatch text
  | looking s, text => s.isMatch text

/-! ## Classes -/

/-- A range of characters by their code points. -/
def codeRange (first last : Nat) : WrittenSet :=
  .range ⟨Char.ofNat first, .plain⟩ ⟨Char.ofNat last, .plain⟩

/-- The characters of a kind in schemas. -/
def spelledKind : CharKind → WrittenSet
  | .digit => codeRange 0x30 0x39
  | .word =>
    .union [codeRange 0x41 0x5A, codeRange 0x61 0x7A, codeRange 0x30 0x39, codeRange 0x5F 0x5F]
  | .blank =>
    .union [codeRange 0x20 0x20, codeRange 0x09 0x0D, codeRange 0x2003 0x2003,
      codeRange 0xFEFF 0xFEFF, codeRange 0x2029 0x2029, codeRange 0xA0 0xA0]

/-- A character, which must not be the bell. -/
def spelledLetter (l : Letter) : Option Letter := if l.form = .bell then none else some l

mutual

/-- A class with its kinds spelled out. -/
def spelledSet : WrittenSet → Option WrittenSet
  | .one l => (spelledLetter l).map .one
  | .range a b => do return .range (← spelledLetter a) (← spelledLetter b)
  | .kind k negated => some (.bracketed negated (spelledKind k))
  | .bracketed negated s => (spelledSet s).map (.bracketed negated)
  | .union parts => (spelledSets parts).map .union
  | .combined op a b => do return .combined op (← spelledSet a) (← spelledSet b)
  | s => some s

/-- Some classes with their kinds spelled out. -/
def spelledSets : List WrittenSet → Option (List WrittenSet)
  | [] => some []
  | s :: rest => do
    let s ← spelledSet s
    return s :: (← spelledSets rest)

end

mutual

/-- A pattern with its kinds spelled out. -/
def spelled : Written → Option Written
  | .letter l => (spelledLetter l).map .letter
  | .kind k negated => some (.set negated (spelledKind k))
  | .set negated s => (spelledSet s).map (.set negated)
  | .group kind w => (spelled w).map (.group kind)
  | .count w least most lazy => do return .count (← spelled w) least most lazy
  | .concat parts => (spelledAll parts).map .concat
  | .alternative choices => (spelledAll choices).map .alternative
  | w => some w

/-- Some patterns with their kinds spelled out. -/
def spelledAll : List Written → Option (List Written)
  | [] => some []
  | w :: rest => do
    let w ← spelled w
    return w :: (← spelledAll rest)

end

/-! ## Repetitions -/

/-- Can a pattern be repeated? -/
def isRepeatable : Written → Bool
  | .empty | .anchor _ | .group (.look _ _) _ => false
  | .group (.plain _) w => isRepeatable w
  | .count (.count _ _ _ _) _ _ _ => false
  | _ => true

/-- Flags that schemas know. -/
def areKnown (flags : Pattern.Flags) : Bool :=
  flags.all fun f => f.1 ≠ .carriage && f ≠ (.unicode, false)

/-- The bounds of a repetition as text. -/
def boundsText (least : Nat) (most : Option Nat) : List Written :=
  let text := match most with
    | some n =>
      if n = least then toString least else toString least ++ "," ++ toString n
    | none => toString least ++ ","
  ('\x7b' :: text.toList ++ ['\x7d']).map fun c => .letter ⟨c, .plain⟩

/-- A repetition of a repetition: a plus sign makes the inner one atomic, no other sign may follow
one, and further bounds in braces stand for themselves. -/
def countOfCount (inner : Written) (least : Nat) (most : Option Nat) (lazy : Bool) :
    Option Written :=
  match least, most, lazy with
  | 1, none, false => some (.group .atomic inner)
  | 1, none, true | 0, none, _ | 0, some 1, _ => none
  | least, most, _ => some (.concat (inner :: boundsText least most))

mutual

/-- A pattern with its repetitions put right, if all can be repeated. -/
def settled : Written → Option Written
  | .flags change => if areKnown change then some (.flags change) else none
  | .group (.plain flags) w =>
    if areKnown flags then (settled w).map (.group (.plain flags)) else none
  | .group kind w => (settled w).map (.group kind)
  | .count w least most lazy => do
    let inner ← settled w
    if !isRepeatable w then none
    else
      match w with
      | .count _ _ _ _ => countOfCount inner least most lazy
      | _ => return .count inner least most lazy
  | .concat parts => (settledAll parts).map .concat
  | .alternative choices => (settledAll choices).map .alternative
  | w => some w

/-- Some patterns with their repetitions put right. -/
def settledAll : List Written → Option (List Written)
  | [] => some []
  | w :: rest => do
    let w ← settled w
    return w :: (← settledAll rest)

end

/-! ## Reading -/

mutual

/-- Does a pattern do without looking around, references and atomic groups? -/
def isPlain : Written → Bool
  | .reference _ | .group (.look _ _) _ | .group .atomic _ => false
  | .group _ w => isPlain w
  | .count w _ _ _ => isPlain w
  | .concat parts => arePlain parts
  | .alternative choices => arePlain choices
  | _ => true

/-- Do some patterns do without these? -/
def arePlain : List Written → Bool
  | [] => true
  | w :: rest => isPlain w && arePlain rest

end

mutual

/-- The number of groups that remember, and the greatest number that is referred to. -/
def groupCounts : Written → Nat × Nat
  | .reference n => (0, n)
  | .group (.capture _) w =>
    let (groups, referred) := groupCounts w
    (groups + 1, referred)
  | .group _ w => groupCounts w
  | .count w _ _ _ => groupCounts w
  | .concat parts => allGroupCounts parts
  | .alternative choices => allGroupCounts choices
  | _ => (0, 0)

/-- The numbers for some patterns together. -/
def allGroupCounts : List Written → Nat × Nat
  | [] => (0, 0)
  | w :: rest =>
    let (groups, referred) := groupCounts w
    let (groups', referred') := allGroupCounts rest
    (groups + groups', max referred referred')

end

/-- The pattern that a written one stands for. -/
def ofWritten (w : Written) : Option TextPattern := do
  let w ← settled w
  if isPlain w then (Pattern.ofWritten w).toOption.map plain
  else
    let (groups, referred) := groupCounts w
    if groups < referred then none
    else (Seeker.ofWritten {} w).toOption.map fun s => looking s.1

/-- Reads a pattern. -/
def read (text : String) : Option TextPattern :=
  match readWritten { control := true } text with
  | .ok w => (spelled w).bind ofWritten
  | .error .malformed => none
  | .error .lookAround | .error .reference =>
    match readWritten { control := true, looks := true } text with
    | .ok w => ofWritten w
    | .error _ => none

end TextPattern

end LayeredAccess
